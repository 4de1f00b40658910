-- Text around a separator, for the sample digester that splits its target.

namespace PatternDispatch.Text

/-- The characters before and after the first place where the separator stands. -/
def splitFirstChars (separator : List Char) : List Char → Option (List Char × List Char)
  | [] => if separator = [] then some ([], []) else none
  | c :: cs =>
    if separator.isPrefixOf (c :: cs) then some ([], (c :: cs).drop separator.length)
    else (splitFirstChars separator cs).map fun (before, rest) => (c :: before, rest)

/-- The text before and after the first separator. -/
def splitFirst (separator s : String) : Option (String × String) :=
  (splitFirstChars separator.toList s.toList).map fun (before, rest) =>
    (String.ofList before, String.ofList rest)

end PatternDispatch.Text

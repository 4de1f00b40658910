-- Labels that are names: strings, none null and no two equal.
import PatternDispatch.Switch.Index
import PatternDispatch.Value.Text

namespace PatternDispatch.Switch

/-- The labels from position `i` on as names, after those in `seen`. The noun says
what a label should have been. -/
def names (r : Registry) (noun : String) (seen : List String) : Nat → List Value →
    Except BuildError (List String)
  | _, [] => .ok []
  | i, .null :: _ => .error (nullLabel i)
  | i, .str s :: rest =>
    if s ∈ seen then .error (.invalidLabels ("duplicate label " ++ Text.quoted s))
    else (names r noun (s :: seen) (i + 1) rest).map (s :: ·)
  | i, label :: _ =>
    .error (.invalidLabels ("label " ++ label.text r ++ " at position " ++ toString i ++ " is not " ++ noun))

end PatternDispatch.Switch

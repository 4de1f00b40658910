-- Quoted text. A quote, a backslash and four controls are escaped by name, and
-- what cannot be printed by its number.
import PatternDispatch.Text.Unprinted

namespace PatternDispatch.Text

/-- Lower-case hexadecimal digits, without zeros in front. -/
def hex (n : Nat) : String := String.ofList (Nat.toDigits 16 n)

/-- At least `width` hexadecimal digits. -/
def paddedHex (width n : Nat) : String :=
  let ds := Nat.toDigits 16 n
  String.ofList (List.replicate (width - ds.length) '0' ++ ds)

def quotedChar (c : Char) : String :=
  match c with
  | '"' => "\\\""
  | '\\' => "\\\\"
  | '\n' => "\\n"
  | '\r' => "\\r"
  | '\t' => "\\t"
  | '\x00' => "\\0"
  | _ => if Unprinted.holds c then "\\u\x7b" ++ hex c.toNat ++ "\x7d" else c.toString

def quoted (s : String) : String := "\"" ++ String.join (s.toList.map quotedChar) ++ "\""

end PatternDispatch.Text

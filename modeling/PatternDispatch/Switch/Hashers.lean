-- Hashers that a script can ask for by name. The library itself uses `Text.hash`
-- alone: a switch on strings takes any hasher from its caller, and gives the same
-- answers under all of them. These are callers' hashers to run that with.
import PatternDispatch.Text.Units

namespace PatternDispatch.Switch

/-- Length in bytes. -/
def lengthHash (s : String) : Int32 := .ofNat s.utf8ByteSize

/-- The first byte, and 0 for the empty text. -/
def firstByteHash (s : String) : Int32 := .ofNat (s.toUTF8.toList.headD 0).toNat

def hasher? : String → Option (String → Int32)
  | "default" => some Text.hash
  | "length" => some lengthHash
  | "neg_length" => some fun s => -lengthHash s
  | "zero" => some fun _ => 0
  | "first" => some firstByteHash
  | "parity" => some fun s => Text.hash s &&& 1
  | _ => none

end PatternDispatch.Switch

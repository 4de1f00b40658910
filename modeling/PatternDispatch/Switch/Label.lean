-- Labels of type switches: a class, a string or an int.
import PatternDispatch.Switch.Index
import PatternDispatch.Value.Membership
import PatternDispatch.Value.Text

namespace PatternDispatch

inductive Label where
  /-- Matches the instances of the class. -/
  | cls (c : ClassId)
  | text (s : String)
  /-- Matches a byte, short, char or int with that value. -/
  | number (n : Int32)
deriving DecidableEq

namespace Label

def accepts (r : Registry) : Label → Value → Bool
  | cls c, v => v.isInstance r c
  | text s, v => v.text? == some s
  | number n, v =>
    match v.scalar? with
    | some .byte | some .short | some .char | some .int => v.integral? == some n.toInt
    | _ => false

def isClass : Label → Bool
  | cls _ => true
  | _ => false

def print (r : Registry) : Label → String
  | cls c => r.name c ++ ".class"
  | text s => Text.quoted s
  | number n => toString n.toInt

/-- The label that a constant stands for, or why it stands for none. -/
def ofConstant (r : Registry) : Value → Except String Label
  | .str s => .ok (text s)
  | .int n => .ok (number n)
  | .null => .error "null label"
  | v => .error ("label " ++ v.text r ++ " of type " ++ v.typeName r ++ " is not a class, string or int")

def ofValue (r : Registry) (v : Value) : Except BuildError Label := (ofConstant r v).mapError .invalidLabels

/-- The labels of constants; a fault also tells the position. -/
def ofValues (r : Registry) (vs : List Value) : Except BuildError (List Label) :=
  vs.zipIdx.mapM fun (v, i) =>
    (ofConstant r v).mapError fun reason => .invalidLabels (reason ++ " at position " ++ toString i)

end Label

end PatternDispatch

-- Case indices. A dispatch answers the position of the label that matches, the
-- number of labels if none does, and -1 for a null target.
import PatternDispatch.BuildError

namespace PatternDispatch.Switch

/-- The answer for a null target. -/
def nullIndex : Int32 := -1

/-- The answer for a position. Tables have fewer labels than there are indices. -/
def caseIndex (i : Nat) : Int32 := if i < 0x80000000 then .ofNat i else .maxValue

theorem toInt_caseIndex {i : Nat} (h : i < 0x80000000) : (caseIndex i).toInt = i := by
  simp only [caseIndex, if_pos h]
  exact Int32.toInt_ofNat_of_lt h

/-- Refuse more labels than there are indices. -/
def checkCount (n : Nat) : Except BuildError Unit :=
  if n < 0x80000000 then .ok () else .error (.invalidLabels (toString n ++ " labels exceed the index range"))

/-- The first position at or after `restart` whose entry passes. -/
def firstFrom {α : Type} (p : α → Bool) (xs : List α) (restart : Nat) : Option Nat :=
  ((xs.zipIdx.drop restart).find? (p ·.1)).map (·.2)

/-- The index of a position that was found, among `n` labels. -/
def indexOr (n : Nat) : Option Nat → Int32
  | some i => caseIndex i
  | none => caseIndex n

def nullLabel (i : Nat) : BuildError := .invalidLabels ("null label at position " ++ toString i)

end PatternDispatch.Switch

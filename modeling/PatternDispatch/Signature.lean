-- Signatures of handles.
import PatternDispatch.Hierarchy

namespace PatternDispatch

/-- Parameter types and result type of a handle. -/
structure Signature where
  params : List Ty
  ret : Ty
deriving DecidableEq

namespace Signature

def unary (param ret : Ty) : Signature := ⟨[param], ret⟩

def arity (s : Signature) : Nat := s.params.length

def param? (s : Signature) (i : Nat) : Option Ty := s.params[i]?

def withRet (s : Signature) (ret : Ty) : Signature := { s with ret }

/-- Another type for one parameter; no change if there is none at `i`. -/
def withParam (s : Signature) (i : Nat) (t : Ty) : Signature := { s with params := s.params.set i t }

def listText (r : Registry) (ts : List Ty) : String :=
  "(" ++ String.intercalate ", " (ts.map (·.text r)) ++ ")"

def text (r : Registry) (s : Signature) : String := listText r s.params ++ " -> " ++ s.ret.text r

def describe (r : Registry) (s : Signature) : String :=
  "Signature \x7b params: [" ++ String.intercalate ", " (s.params.map (·.describe r)) ++ "], ret: " ++
    s.ret.describe r ++ " \x7d"

end Signature

end PatternDispatch

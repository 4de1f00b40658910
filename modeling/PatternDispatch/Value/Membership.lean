-- Which values inhabit which types and classes.
import PatternDispatch.Value

namespace PatternDispatch

/-- Whether the value is an instance of the class; null never is. -/
def Value.isInstance (r : Registry) (v : Value) (c : ClassId) : Bool :=
  match v.class? with
  | some d => r.isSubclass d c
  | none => false

/-- Whether the value is a legal inhabitant of the type. -/
def Ty.accepts (r : Registry) (t : Ty) (v : Value) : Bool :=
  match t with
  | .scalar k => v.scalar? == some k
  | .ref c =>
    match v.class? with
    | some d => r.isSubclass d c
    | none => true

end PatternDispatch

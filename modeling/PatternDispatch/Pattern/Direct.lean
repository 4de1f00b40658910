-- Patterns that test the target itself: for its type, or for equality with a
-- constant.
import PatternDispatch.Pattern.Adapt

namespace PatternDispatch.Pattern

/-- Matches the non-null instances of the type and binds the target. For a
scalar type every target matches. -/
def ofType (t : Ty) : Build Pattern := do
  let tryMatch ← match t with
    | .scalar _ => Build.handle (.unary t t) Body.identity
    | .ref c => Build.unary t t fun v => do
      if v.isInstance (← Run.registry) c then return v else return .null
  make ⟨t, [t]⟩ tryMatch [← Build.handle (.unary t t) Body.identity]

def ofTypeFor (t target : Ty) : Build Pattern := do adapt (← ofType t) target

/-- As `ofType`, but null matches too, and binds null. -/
def nullable (t : Ty) : Build Pattern :=
  match t with
  | .scalar _ => ofType t
  | .ref c => do
    let tryMatch ← Build.unary t .object fun v => do
      if v.isNull || v.isInstance (← Run.registry) c then return v.disguise else return .null
    let component ← Build.unary .object t fun carrier => pure carrier.reveal
    make ⟨t, [t]⟩ tryMatch [component]

def nullableFor (t target : Ty) : Build Pattern := do adapt (← nullable t) target

/-- Matches what is equal to the constant, without bindings. -/
def ofConstant (c : Value) : Build Pattern := do
  let target := Ty.ref (c.class?.getD .object)
  let tryMatch ← Build.unary target .object fun v =>
    return if v.equals c then .bool true else .null
  make ⟨target, []⟩ tryMatch []

def ofConstantFor (c : Value) (target : Ty) : Build Pattern := do adapt (← ofConstant c) target

end PatternDispatch.Pattern

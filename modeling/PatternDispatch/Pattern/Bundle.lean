-- How the bindings of a match travel from the match attempt to the components.
-- No binding travels as true, one binding as itself with null in disguise, and
-- several ones in a carrier.
import PatternDispatch.Carrier.Typed

namespace PatternDispatch

/-- Constructor and components of what a match attempt returns. -/
structure Bundle where
  carrierType : Ty
  constructor : Handle
  components : List Handle

namespace Bundle

/-- The value itself, null in disguise, if the type accepts it. -/
def wrap (t : Ty) (v : Value) : Run Value := do
  if t.accepts (← Run.registry) v then return v.disguise else Run.noMatch

def ofTypes : List Ty → Build Bundle
  | [] => return ⟨.object, ← Build.handle ⟨[], .object⟩ (Body.constant · (.bool true)), []⟩
  | [t] => do
    let constructor ← Build.unary t .object (wrap t)
    let component ← Build.unary .object t fun c => pure c.reveal
    return ⟨.object, constructor, [component]⟩
  | ts => do
    let c ← TypedCarrier.ofTypes ts
    return ⟨.carrier, c.constructor, c.accessors⟩

/-- Bundle the values; values that do not fit the types do not match. -/
def construct (b : Bundle) (vs : List Value) : Run Value :=
  if vs.length = b.constructor.sig.arity then b.constructor.invoke vs else Run.noMatch

end Bundle

end PatternDispatch

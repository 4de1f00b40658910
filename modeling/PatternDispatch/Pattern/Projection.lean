-- Patterns that take the target apart by extractors, lazily when a binding is
-- read or eagerly when the target is matched.
import PatternDispatch.Pattern.Basic
import PatternDispatch.Pattern.Bundle

namespace PatternDispatch.Pattern

/-- The descriptor of a projection. Every extractor has to take the target type. -/
def projected (r : Registry) (target : Ty) (extractors : List Handle) : Except BuildError Descriptor :=
  match extractors.zipIdx.find? fun (h, _) => h.sig.params ≠ [target] with
  | some (h, i) =>
    .error (.illegalDescriptor (target.text r)
      ("extractor " ++ toString i ++ " " ++ h.sig.text r ++ " does not take the target type"))
  | none => .ok ⟨target, extractors.map (·.sig.ret)⟩

/-- Matches every non-null target and extracts when a binding is read. The
carrier is the target. -/
def ofLazyProjection (target : Ty) (extractors : List Handle) : Build Pattern := do
  let d ← Build.ofExcept (projected (← Build.registry) target extractors)
  make d (← Build.handle (.unary target target) Body.identity) extractors

/-- Run all extractors on a target and bundle what they give. -/
def extract (extractors : List Handle) (constructor : Handle) (target : Value) : Run Value := do
  constructor.invoke (← extractors.mapM (·.invoke [target]))

/-- Extracts all bindings of a non-null target when it is matched. An extractor
that does not match fails the match. -/
def ofEagerProjection (target : Ty) (extractors : List Handle) : Build Pattern := do
  let d ← Build.ofExcept (projected (← Build.registry) target extractors)
  let bundle ← Bundle.ofTypes d.bindings
  let tryMatch ← Build.unary target bundle.carrierType fun
    | .null => return .null
    | v => Run.orNull (extract extractors bundle.constructor v)
  make d tryMatch bundle.components

/-- Field `i` of an instance of exactly that class. -/
def fieldOf (c : ClassId) (i : Nat) : Value → Option Value
  | .object d fields => if d = c then fields[i]? else none
  | _ => none

/-- The eager projection of a record class on its components. -/
def ofRecord (c : ClassId) : Build Pattern := do
  let info := (← Build.registry).info c
  match info.components? with
  | none => throw (.illegalDescriptor info.name "not a record class")
  | some components =>
    let extractors ← components.zipIdx.mapM fun (component, i) =>
      Build.unary (.ref c) component.ty fun v => Run.ofOption (fieldOf c i v)
    ofEagerProjection (.ref c) extractors

end PatternDispatch.Pattern

-- A pattern on another target type. The adapted match attempt lets through
-- only what could have been passed to the first one.
import PatternDispatch.Pattern.Basic

namespace PatternDispatch

/-- What a value has to be to reach the pattern behind. -/
inductive Guard where
  | isInstance (cls : ClassId)
  /-- Null, or an inhabitant of the type. -/
  | isNullOr (ty : Ty)
deriving DecidableEq

namespace Guard

def admits (r : Registry) : Guard → Value → Bool
  | isInstance c, v => v.isInstance r c
  | isNullOr t, v => v.isNull || t.accepts r v

/-- The guard between two related target types. A scalar may become a supertype
of its boxed class; a reference may become a supertype or a subtype. -/
def between? (r : Registry) : (old new : Ty) → Option Guard
  | .scalar k, .ref c => if r.isSubclass k.boxed c then some (isInstance k.boxed) else none
  | old, new => if new.assignable r old || old.assignable r new then some (isNullOr old) else none

end Guard

namespace Pattern

/-- Run the match attempt on what the guard admits; all else is no match. -/
def guarded (guard : Guard) (inner : Handle) : List Value → Run Value
  | [v] => do if guard.admits (← Run.registry) v then inner.invoke [v] else return .null
  | _ => return .null

def adapt (p : Pattern) (target : Ty) : Build Pattern := do
  if p.descriptor.target = target then return p
  let r ← Build.registry
  match Guard.between? r p.descriptor.target target with
  | some guard =>
    let tryMatch ← Build.handle (p.tryMatch.sig.withParam 0 target) (⟨·, guarded guard p.tryMatch⟩)
    make (p.descriptor.withTarget target) tryMatch p.components
  | none => throw (.incompatibleTarget (p.descriptor.target.text r) (target.text r))

end Pattern

end PatternDispatch

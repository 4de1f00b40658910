-- Patterns whose match is decided by a digester: it looks at the target, may
-- bind values any number of times, and returns a result.
import PatternDispatch.Pattern.Basic
import PatternDispatch.Pattern.Bundle

namespace PatternDispatch

/-- What a digester does with one target. -/
inductive Digest where
  | done (result : Value)
  /-- Bind the values, and go on with what that gave. -/
  | bind (values : List Value) (next : Value → Digest)

/-- From the classes as they stand and the target to what is done. -/
abbrev Digester := Registry → Value → Digest

namespace Digest

/-- Return what binding the values gives. -/
def bound (values : List Value) : Digest := bind values done

/-- The result, and whether anything was bound. Values that do not fit give null. -/
def run (bundle : Bundle) : Bool → Digest → Run (Value × Bool)
  | bound, done result => return (result, bound)
  | _, bind values next => do run bundle true (next (← Run.orNull (bundle.construct values)))

end Digest

/-- Matches a non-null target if the digester binds values and returns a carrier. -/
def Pattern.ofDigester (d : Descriptor) (digester : Digester) : Build Pattern := do
  let bundle ← Bundle.ofTypes d.bindings
  let tryMatch ← Build.unary d.target bundle.carrierType fun
    | .null => return .null
    | v => do
      let (result, bound) ← (digester (← Run.registry) v).run bundle false
      return if bound then result else .null
  make d tryMatch bundle.components

end PatternDispatch

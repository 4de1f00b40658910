-- Patterns made of patterns: with fewer bindings, with patterns inside the
-- bindings, and with a consumer of the bindings.
import PatternDispatch.Pattern.Adapt
import PatternDispatch.Pattern.Bundle

namespace PatternDispatch.Pattern

/-! ## Fewer bindings -/

/-- Hide the bindings at the positions. Matching stays the same. -/
def drop (p : Pattern) (positions : List Nat) : Build Pattern :=
  let count := p.descriptor.bindings.length
  match positions.find? (count ≤ ·) with
  | some index => throw (.componentOutOfBounds index count)
  | none =>
    let kept := (List.range count).filter (· ∉ positions)
    make ⟨p.descriptor.target, kept.filterMap (p.descriptor.bindings[·]?)⟩ p.tryMatch
      (kept.filterMap (p.components[·]?))

/-! ## Patterns inside -/

/-- The present inner patterns with their positions, each adapted to the type of
the binding there. -/
def adaptInners (bindings : List Ty) : Nat → List (Option Pattern) → Build (List (Nat × Pattern))
  | _, [] => return []
  | i, none :: inners => adaptInners bindings (i + 1) inners
  | i, some inner :: inners => do
    let adapted ← match bindings[i]? with
      | some t => adapt inner t
      | none => throw (.componentOutOfBounds i bindings.length)
    return (i, adapted) :: (← adaptInners bindings (i + 1) inners)

/-- The bindings of the inner patterns, each matched against the outer binding at
its position. -/
def innerBindings (outer : List Value) : List (Nat × Pattern) → Run (List Value)
  | [] => return []
  | (i, inner) :: inners => do
    let own ← inner.matchBindings (← Run.ofOption outer[i]?)
    return own ++ (← innerBindings outer inners)

/-- Match the outer pattern, then the inner ones, and bundle all bindings. -/
def matchNested (outer : Pattern) (inners : List (Nat × Pattern)) (bundle : Bundle) (target : Value) :
    Run Value := do
  let own ← outer.matchBindings target
  bundle.construct (own ++ (← innerBindings own inners))

/-- Match the outer pattern, then each present inner pattern against the outer
binding at the same position. The bindings are the outer ones, followed by those
of the inner patterns in order. -/
def nested (outer : Pattern) (inners : List (Option Pattern)) : Build Pattern := do
  let types := outer.descriptor.bindings
  if types.length < inners.length then
    throw (.componentOutOfBounds (inners.length - 1) types.length)
  let present ← adaptInners types 0 inners
  let d : Descriptor :=
    ⟨outer.descriptor.target, types ++ present.flatMap fun (_, p) => p.descriptor.bindings⟩
  let bundle ← Bundle.ofTypes d.bindings
  let tryMatch ← Build.unary d.target bundle.carrierType fun v =>
    Run.orNull (matchNested outer present bundle v)
  make d tryMatch bundle.components

/-! ## A consumer -/

/-- Match, then give the bindings to the consumer; the default stands for a
target that does not match. -/
def consume (p : Pattern) (consumer : Handle) (default : Value) (target : Value) : Run Value := do
  match ← (p.matchCarrier target).attempt with
  | none => return default
  | some carrier => consumer.invoke (← p.bindings carrier)

/-- The handle that matches and consumes. -/
def compose (p : Pattern) (consumer : Handle) (default : Value) : Build Handle := do
  let r ← Build.registry
  if consumer.sig.params = p.descriptor.bindings then
    Build.unary p.descriptor.target consumer.sig.ret (p.consume consumer default)
  else throw (.contractMismatch (consumer.sig.text r) ("a consumer of " ++ p.descriptor.text r))

end PatternDispatch.Pattern

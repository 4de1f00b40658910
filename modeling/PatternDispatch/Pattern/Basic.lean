-- Patterns. A pattern is a match attempt from the target to a carrier, and one
-- component per binding that reads the binding out of the carrier. The pairing
-- is checked once.
import PatternDispatch.Pattern.Descriptor
import PatternDispatch.Store

namespace PatternDispatch

structure Pattern where
  descriptor : Descriptor
  /-- From the target to the carrier; null means no match. -/
  tryMatch : Handle
  /-- From the carrier to each binding. -/
  components : List Handle

namespace Pattern

/-! ## Pairing -/

/-- What is wrong with a component, given the carrier type and its binding type. -/
def componentFault? (r : Registry) (carrier : Ty) (binding : Option Ty) (i : Nat) (sig : Signature) :
    Option String :=
  if sig.params ≠ [carrier] then
    some ("component " ++ toString i ++ " " ++ sig.text r ++ " does not take the carrier type " ++
      carrier.text r)
  else if some sig.ret ≠ binding then
    some ("component " ++ toString i ++ " " ++ sig.text r ++ " does not return the binding type")
  else none

/-- What is wrong with the parts of a pattern, if anything is. -/
def fault? (r : Registry) (d : Descriptor) (tryMatch : Signature) (components : List Signature) :
    Option String :=
  if components.length ≠ d.bindings.length then
    some (toString d.bindings.length ++ " bindings but " ++ toString components.length ++ " components")
  else if tryMatch.params ≠ [d.target] then
    some ("match attempt " ++ tryMatch.text r ++ " does not take the target type")
  else
    components.zipIdx.findSome? fun (sig, i) => componentFault? r tryMatch.ret d.bindings[i]? i sig

/-- Carriers of different classes are all declared as `Object`, so that patterns
can be exchanged for one another. -/
def erased : Ty → Ty
  | .scalar k => .scalar k
  | .ref _ => .object

/-- Pair a match attempt with its components. -/
def pair (r : Registry) (d : Descriptor) (tryMatch : Handle) (components : List Handle) :
    Except BuildError Pattern :=
  match fault? r d tryMatch.sig (components.map (·.sig)) with
  | some reason => .error (.illegalDescriptor (d.text r) reason)
  | none => do
    let carrier := erased tryMatch.sig.ret
    let attempt ← tryMatch.retype r (tryMatch.sig.withRet carrier)
    let readers ← components.mapM fun h => h.retype r (h.sig.withParam 0 carrier)
    return ⟨d, attempt, readers⟩

def make (d : Descriptor) (tryMatch : Handle) (components : List Handle) : Build Pattern := do
  Build.ofExcept (pair (← Build.registry) d tryMatch components)

/-! ## Matching -/

def carrierType (p : Pattern) : Ty := p.tryMatch.sig.ret

def component (p : Pattern) (i : Nat) : Except BuildError Handle :=
  match p.components[i]? with
  | some h => .ok h
  | none => .error (.componentOutOfBounds i p.components.length)

/-- The carrier of a target that matches. -/
def matchCarrier (p : Pattern) (target : Value) : Run Value := do
  match ← p.tryMatch.invoke [target] with
  | .null => Run.noMatch
  | carrier => return carrier

/-- All bindings that a carrier holds. -/
def bindings (p : Pattern) (carrier : Value) : Run (List Value) := p.components.mapM (·.invoke [carrier])

/-- The bindings of a target that matches. -/
def matchBindings (p : Pattern) (target : Value) : Run (List Value) := do
  p.bindings (← p.matchCarrier target)

/-- Whether the target matches, whatever the bindings. -/
def isMatch (p : Pattern) (target : Value) : Run Bool := return (← (p.matchCarrier target).attempt).isSome

end Pattern

end PatternDispatch

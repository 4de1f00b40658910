-- What can go wrong while something is built. A target that does not match is
-- never an error.

namespace PatternDispatch

/-- A request that breaks the rules of what it asks for. -/
inductive BuildError where
  /-- A carrier with too many slots. -/
  | arityExceeded (shape : String) (slots max : Nat)
  /-- An index past the last component. -/
  | componentOutOfBounds (index count : Nat)
  /-- A carrier class that could not be registered. -/
  | specializationFailed (shape reason : String)
  /-- Components that do not fit the descriptor of a pattern. -/
  | illegalDescriptor (descriptor reason : String)
  /-- Two unrelated target types. -/
  | incompatibleTarget (old new : String)
  /-- Null, repeated or foreign case labels. -/
  | invalidLabels (reason : String)
  /-- A call site of another type than was asked for. -/
  | contractMismatch (found expected : String)
deriving DecidableEq

namespace BuildError

def message : BuildError → String
  | arityExceeded shape slots max =>
    "carrier shape " ++ shape ++ " needs " ++ toString slots ++ " slots, more than the maximum of " ++
      toString max
  | componentOutOfBounds index count =>
    "component index " ++ toString index ++ " is out of bounds for " ++ toString count ++ " components"
  | specializationFailed shape reason => "could not specialize carrier " ++ shape ++ ": " ++ reason
  | illegalDescriptor descriptor reason => "illegal descriptor " ++ descriptor ++ ": " ++ reason
  | incompatibleTarget old new => "cannot adapt pattern target from " ++ old ++ " to " ++ new
  | invalidLabels reason => "invalid label set: " ++ reason
  | contractMismatch found expected =>
    "call site type " ++ found ++ " does not match expected " ++ expected

/-- The stable code: the first digit tells the subsystem. -/
def code : BuildError → String
  | arityExceeded .. => "R1001"
  | componentOutOfBounds .. => "R1002"
  | specializationFailed .. => "R1901"
  | illegalDescriptor .. => "R2001"
  | incompatibleTarget .. => "R2002"
  | invalidLabels .. => "R3001"
  | contractMismatch .. => "R4001"

/-- Whether the cause lies in this library and not with the caller. -/
def isInternal : BuildError → Bool
  | specializationFailed .. => true
  | _ => false

end BuildError

end PatternDispatch

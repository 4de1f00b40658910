-- Sample digesters: bind what the target gives, return a value, or decide by the
-- class of the target. The library makes no pattern with them, since digesters are
-- the caller's: any function is one. Scripts and examples take them from here.
import PatternDispatch.Pattern.Digest
import PatternDispatch.Text.Split

namespace PatternDispatch

/-- One value to bind, given the target. -/
inductive Template where
  | target
  /-- Field `i` of the target, and null if there is none. -/
  | field (i : Nat)
  | value (v : Value)

def Template.fill (target : Value) : Template → Value
  | .target => target
  | .field i => (target.object?.bind (·.2[i]?)).getD .null
  | .value v => v

namespace Digester

/-- Return what binding the templates gives. -/
def binding (ts : List Template) : Digester := fun _ target => .bound (ts.map (·.fill target))

/-- Return the value and bind nothing. -/
def returning (v : Value) : Digester := fun _ _ => .done v

/-- Bind the templates, and return the value all the same. -/
def bindingThen (ts : List Template) (v : Value) : Digester := fun _ target =>
  .bind (ts.map (·.fill target)) fun _ => .done v

/-- Bind twice, and return what the second time gives. -/
def bindingTwice (ts us : List Template) : Digester := fun _ target =>
  .bind (ts.map (·.fill target)) fun _ => .bound (us.map (·.fill target))

/-- Bind all fields of an object, and no values for another target. -/
def fields : Digester := fun _ target => .bound ((target.object?.map (·.2)).getD [])

/-- Bind the length before the first separator in a string, in bytes, and the
text after it. -/
def splitting (separator : String) : Digester := fun _ target =>
  match target.text?.bind (Text.splitFirst separator) with
  | some (before, rest) => .bound [.int (.ofNat before.utf8ByteSize), .str rest]
  | none => .done .null

/-- Decide by whether the target is an instance of the class. -/
def ifInstance (c : ClassId) (yes no : Digester) : Digester := fun r target =>
  if target.isInstance r c then yes r target else no r target

end Digester

end PatternDispatch

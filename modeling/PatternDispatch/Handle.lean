-- Handles: typed callables that can be shared. Types are checked when handles
-- are put together and not when they run.
import PatternDispatch.BuildError
import PatternDispatch.Run
import PatternDispatch.Signature
import PatternDispatch.Value.Text

namespace PatternDispatch

/-- What a handle does, known by its identity. -/
structure Body where
  id : Nat
  run : List Value → Run Value

/-- A body under a declared signature. -/
structure Handle where
  sig : Signature
  body : Body

namespace Handle

/-- Run the handle. The number of arguments is the business of its body. -/
def invoke (h : Handle) (args : List Value) : Run Value := h.body.run args

def sameBody (a b : Handle) : Bool := a.body.id == b.body.id

/-- The same body under another signature with as many parameters. -/
def retype (r : Registry) (h : Handle) (sig : Signature) : Except BuildError Handle :=
  if sig.arity = h.sig.arity then .ok { h with sig }
  else .error (.contractMismatch (sig.text r) (h.sig.text r))

def text (r : Registry) (h : Handle) : String := "Handle" ++ h.sig.text r

end Handle

namespace Body

variable (id : Nat)

/-- A body for one argument; it does not match any other number of them. -/
def unary (f : Value → Run Value) : Body :=
  ⟨id, fun
    | [v] => f v
    | _ => Run.noMatch⟩

def identity : Body := unary id pure

/-- Returns the value whatever the arguments. -/
def constant (v : Value) : Body := ⟨id, fun _ => pure v⟩

/-! ## Bodies of callers -/

-- A program brings bodies of its own, for its extractors and its generic sites. The library
-- makes no handle with those below; scripts and examples take them from here.

def never : Body := ⟨id, fun _ => Run.noMatch⟩

def argument (i : Nat) : Body := ⟨id, fun args => Run.ofOption args[i]?⟩

/-- Field `i` of an object, of whatever class. -/
def field (i : Nat) : Body := unary id fun v => Run.ofOption (v.object?.bind (·.2[i]?))

/-- The texts of all arguments, with colons between them. -/
def joined : Body :=
  ⟨id, fun args => do
    return .str (String.intercalate ":" (Value.texts (← Run.registry) args))⟩

/-- Runs the handle and counts each call under the name. -/
def counted (name : String) (h : Handle) : Body :=
  ⟨id, fun args => do Run.record name; h.invoke args⟩

end Body

end PatternDispatch

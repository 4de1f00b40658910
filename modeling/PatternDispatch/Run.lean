-- Running handles. A run reads the classes as they stand, may end without a
-- match, and keeps what outlives it: the identities given out, the counted
-- calls, the links of call sites and the memos of type switches.
import PatternDispatch.Value.Membership

namespace PatternDispatch

/-- Answers of a class-only type switch, by runtime class and restart. -/
abbrev Memo := List ((ClassId × Nat) × Int32)

structure RunState where
  nextId : Nat
  /-- The names of all counted calls, the latest first. -/
  calls : List String
  /-- For each call site the arguments of the call that linked it. -/
  links : Array (Option (List Value))
  /-- For each memoized type switch the answers so far. -/
  memos : Array Memo

namespace RunState

/-- Identity 0 is that of the null mark. -/
def initial : RunState := ⟨1, [], #[], #[]⟩

def count (s : RunState) (name : String) : Nat := s.calls.count name

end RunState

/-- A run that gives an `α`, or ends without a match. -/
abbrev Run := ReaderT Registry (OptionT (StateM RunState))

namespace Run

variable {α β : Type}

/-- What comes out of a run over these classes from this state. -/
def exec (x : Run α) (r : Registry) (s : RunState) : Option α × RunState := x r s

def noMatch : Run α := failure

def ofOption : Option α → Run α
  | some a => pure a
  | none => noMatch

/-- Whether the run matched is part of the answer. -/
def attempt (x : Run α) : Run (Option α) := fun r s => let (a, s) := x.exec r s; (some a, s)

/-- Null stands for a run without a match. -/
def orNull (x : Run Value) : Run Value := do return (← attempt x).getD .null

def registry : Run Registry := read

def freshId : Run Nat := modifyGet fun s => (s.nextId, { s with nextId := s.nextId + 1 })

def record (name : String) : Run Unit := modify fun s => { s with calls := name :: s.calls }

/-! ## What comes out -/

@[simp] theorem exec_pure (a : α) (r : Registry) (s : RunState) : (pure a : Run α).exec r s = (some a, s) := rfl

@[simp] theorem exec_noMatch (r : Registry) (s : RunState) : (noMatch : Run α).exec r s = (none, s) := rfl

theorem exec_bind (x : Run α) (f : α → Run β) (r : Registry) (s : RunState) :
    (x >>= f).exec r s =
      match x.exec r s with
      | (some a, t) => (f a).exec r t
      | (none, t) => (none, t) := by
  simp only [exec, bind, ReaderT.bind, OptionT.bind, OptionT.mk, StateT.bind]
  rcases x r s with ⟨_ | a, t⟩ <;> rfl

@[simp] theorem exec_attempt (x : Run α) (r : Registry) (s : RunState) :
    x.attempt.exec r s = (some (x.exec r s).1, (x.exec r s).2) := rfl

@[simp] theorem exec_registry (r : Registry) (s : RunState) : registry.exec r s = (some r, s) := rfl

@[simp] theorem exec_freshId (r : Registry) (s : RunState) :
    freshId.exec r s = (some s.nextId, { s with nextId := s.nextId + 1 }) := rfl

@[simp] theorem exec_record (name : String) (r : Registry) (s : RunState) :
    (record name).exec r s = (some (), { s with calls := name :: s.calls }) := rfl

@[simp] theorem exec_ofOption (a : Option α) (r : Registry) (s : RunState) :
    (ofOption a).exec r s = (a, s) := by cases a <;> rfl

end Run

end PatternDispatch

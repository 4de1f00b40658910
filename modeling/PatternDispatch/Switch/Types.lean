-- Type switches: the first label at or after the restart that accepts the
-- target. When all labels are classes the answer depends on the runtime class
-- alone, and is kept.
import PatternDispatch.Store
import PatternDispatch.Switch.Label

namespace PatternDispatch

structure TypeSwitch where
  labels : List Label
  /-- Where the run state keeps the answers; a switch with other labels than
  classes keeps none. -/
  memo : Option Nat

namespace TypeSwitch

/-- The first label at or after `restart` that accepts the target. -/
def scanLabels (r : Registry) (labels : List Label) (v : Value) (restart : Nat) : Int32 :=
  if v.isNull then Switch.nullIndex
  else Switch.indexOr labels.length (Switch.firstFrom (·.accepts r v) labels restart)

/-- The kept answer, or a scan whose answer is then kept. Every restart past the
last label is one. -/
def remember (r : Registry) (labels : List Label) (memo : Memo) (v : Value) (restart : Nat) : Int32 × Memo :=
  match v.class? with
  | none => (scanLabels r labels v restart, memo)
  | some c =>
    let restart := min restart labels.length
    match List.lookup (c, restart) memo with
    | some i => (i, memo)
    | none =>
      let i := scanLabels r labels v restart
      (i, ((c, restart), i) :: memo)

def isClassOnly (t : TypeSwitch) : Bool := t.memo.isSome

def ofLabels (labels : List Label) : Build TypeSwitch := do
  Build.ofExcept (Switch.checkCount labels.length)
  if labels.all Label.isClass then
    let memos := (← get).run.memos
    modify fun st => { st with run := { st.run with memos := memos.push [] } }
    return ⟨labels, some memos.size⟩
  else return ⟨labels, none⟩

def ofValues (vs : List Value) : Build TypeSwitch := do
  ofLabels (← Build.ofExcept (Label.ofValues (← Build.registry) vs))

def scan (t : TypeSwitch) (v : Value) (restart : Nat) : Run Int32 :=
  return scanLabels (← Run.registry) t.labels v restart

/-- As `scan`, with what was kept. -/
def dispatch (t : TypeSwitch) (v : Value) (restart : Nat) : Run Int32 := do
  match t.memo with
  | none => t.scan v restart
  | some cell =>
    let r ← Run.registry
    modifyGet fun s =>
      let (i, memo) := remember r t.labels (s.memos[cell]?.getD []) v restart
      (i, { s with memos := s.memos.setIfInBounds cell memo })

end TypeSwitch

end PatternDispatch

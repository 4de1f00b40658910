-- Carriers in declared order and declared types: every part is encoded on the
-- way in and decoded on the way out.
import PatternDispatch.Carrier.Canonical
import PatternDispatch.Carrier.Coding
import PatternDispatch.Carrier.Slots

namespace PatternDispatch.TypedCarrier

/-- The encoded arguments, each at its canonical position. -/
def arrange? (s : Shape) (ts : List Ty) (args : List Value) : Option (List Value) := do
  if args.length = ts.length then
    let stored ← (ts.zip args).mapM fun (t, v) => t.encode v
    return ((s.positions ts).zip stored).foldl (fun row (p, v) => row.set p.toNat v)
      (List.replicate ts.length .null)
  else none

/-- A constructor that takes the parts in declared order. -/
def constructorOf (s : Shape) (ts : List Ty) (raw : Handle) : Build Handle :=
  Build.handle ⟨ts, .carrier⟩ (⟨·, fun args => do
    raw.invoke (← Run.ofOption (arrange? s ts args))⟩)

/-- An accessor for the part of type `t` at a canonical position. -/
def accessorOf (t : Ty) (raw : List Handle) (p : UInt64) : Build Handle :=
  Build.unary .carrier t fun v => do
    let read ← Run.ofOption raw[p.toNat]?
    Run.ofOption (t.decode (← read.invoke [v]))

/-- The carrier for parts of these types. -/
def ofTypes (ts : List Ty) : Build TypedCarrier := do
  match List.lookup ts (← get).typed with
  | some c => return c
  | none =>
    let shape := Shape.ofTypes ts
    let raw ← CanonicalCarrier.ofShape shape
    let constructor ← constructorOf shape ts raw.constructor
    let accessors ← ((shape.positions ts).zip ts).mapM fun (p, t) => accessorOf t raw.accessors p
    let c : TypedCarrier := ⟨ts, shape, constructor, accessors⟩
    if raw.cls.isSome then modify fun st => { st with typed := (ts, c) :: st.typed }
    return c

/-- The accessor of part `i`. -/
def component (c : TypedCarrier) (i : Nat) : Except BuildError Handle :=
  match c.accessors[i]? with
  | some h => .ok h
  | none => .error (.componentOutOfBounds i c.accessors.length)

/-- The accessor of part `i` of the types alone. -/
def componentOf (ts : List Ty) (i : Nat) : Build Handle := do
  let shape := Shape.ofTypes ts
  match ts[i]?, shape.positionOf? ts i with
  | some t, some p => accessorOf t (← CanonicalCarrier.ofShape shape).accessors p
  | _, _ => throw (.componentOutOfBounds i ts.length)

end PatternDispatch.TypedCarrier

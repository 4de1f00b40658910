-- Switches on numbers. Labels are folded to whole-number keys and searched in
-- ascending order. Floating numbers fold to their bits, so a label that is not a
-- number can match, and the two zeros differ.
import PatternDispatch.Switch.Index
import PatternDispatch.Switch.Search
import PatternDispatch.Value.Text

namespace PatternDispatch

/-- What a numeric switch is on. -/
inductive NumericKind where
  /-- Booleans, bytes, shorts, chars and ints. -/
  | int
  /-- Longs, and all of the former but booleans. -/
  | long
  | float
  | double
deriving DecidableEq

namespace NumericKind

def ofScalar : Scalar → NumericKind
  | .boolean | .byte | .short | .char | .int => .int
  | .long => .long
  | .float => .float
  | .double => .double

/-- The kind of a switch on values of the type, boxed or not. -/
def ofTy? : Ty → Option NumericKind
  | .scalar k => some (ofScalar k)
  | .ref c => (Scalar.ofBoxed? c).map ofScalar

def boxed : NumericKind → ClassId
  | .int => .integer
  | .long => .long
  | .float => .float
  | .double => .double

def name : NumericKind → String
  | .int => "int"
  | .long => "long"
  | .float => "float"
  | .double => "double"

def title : NumericKind → String
  | .int => "Int"
  | .long => "Long"
  | .float => "Float"
  | .double => "Double"

/-- The key of a value; a value of another kind has none. -/
def key? : NumericKind → Value → Option Int
  | .int, .bool b => some (if b then 1 else 0)
  | .int, .byte n => some n.toInt
  | .int, .short n => some n.toInt
  | .int, .char u => some u.toNat
  | .int, .int n => some n.toInt
  | .long, v => v.integral?
  | .float, .float bits => some bits.toInt32.toInt
  | .double, .double bits => some bits.toInt64.toInt
  | _, _ => none

end NumericKind

/-- The keys of one kind, in case order and in ascending order. -/
structure NumericTable where
  kind : NumericKind
  cases : List Int
  sorted : Array Int
  /-- The case index of each sorted key. -/
  places : Array Int32

namespace NumericTable

def keyOf (r : Registry) (kind : NumericKind) (label : Value) (i : Nat) : Except BuildError Int :=
  if label.isNull then .error (Switch.nullLabel i)
  else
    match kind.key? label with
    | some key => .ok key
    | none =>
      .error (.invalidLabels ("label " ++ label.text r ++ " at position " ++ toString i ++ " is not a " ++
        kind.name ++ " constant"))

/-- Keys with their positions, in ascending order; equal keys keep the case order. -/
def ordered (keys : List Int) : List (Int × Nat) := keys.zipIdx.mergeSort fun a b => a.1 ≤ b.1

/-- The positions of the first two neighbours with one key. -/
def firstRepeat? : List (Int × Nat) → Option (Nat × Nat)
  | a :: b :: rest => if a.1 = b.1 then some (a.2, b.2) else firstRepeat? (b :: rest)
  | _ => none

/-- The table of the labels: of one kind, none null, no two with one key. -/
def ofLabels (r : Registry) (kind : NumericKind) (labels : List Value) : Except BuildError NumericTable := do
  Switch.checkCount labels.length
  let keys ← labels.zipIdx.mapM fun (label, i) => keyOf r kind label i
  let order := ordered keys
  match firstRepeat? order with
  | some (i, j) =>
    throw (.invalidLabels ("duplicate label " ++ (labels[j]?.getD .null).text r ++ " at positions " ++
      toString (min i j) ++ " and " ++ toString (max i j)))
  | none =>
    return ⟨kind, keys, (order.map (·.1)).toArray, (order.map fun e => Switch.caseIndex e.2).toArray⟩

def labelCount (t : NumericTable) : Nat := t.cases.length

def miss (t : NumericTable) : Int32 := Switch.caseIndex t.labelCount

def dispatch (t : NumericTable) (v : Value) : Int32 :=
  if v.isNull then Switch.nullIndex
  else (((t.kind.key? v).bind (Switch.search t.sorted)).bind (t.places[·]?)).getD t.miss

def scan (t : NumericTable) (v : Value) : Int32 :=
  if v.isNull then Switch.nullIndex
  else Switch.indexOr t.labelCount ((t.kind.key? v).bind (t.cases.idxOf? ·))

def rowText (xs : List Int) : String := "[" ++ String.intercalate ", " (xs.map toString) ++ "]"

/-- The long form of a table. -/
def describe (t : NumericTable) : String :=
  "NumericTable \x7b kind: " ++ t.kind.title ++ ", cases: " ++ rowText t.cases ++ ", sorted: " ++
    rowText t.sorted.toList ++ ", positions: " ++ rowText (t.places.toList.map (·.toInt)) ++ " \x7d"

end NumericTable

end PatternDispatch

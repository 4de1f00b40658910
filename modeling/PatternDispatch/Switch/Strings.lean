-- Switches on strings. Labels are sorted by hash; a hit is confirmed by
-- equality, and only a table with colliding hashes looks at the other labels
-- with that hash.
import PatternDispatch.Switch.Names
import PatternDispatch.Switch.Search

namespace PatternDispatch

structure StringTable where
  cases : List String
  hashes : Array Int
  labels : Array String
  /-- The case index of each label. -/
  places : Array Int32
  /-- Whether two labels have one hash. -/
  collisions : Bool
  hasher : String → Int32

namespace StringTable

/-- Labels with their hashes and positions, by ascending hash; equal hashes keep
the case order. -/
def ordered (hasher : String → Int32) (names : List String) : List ((Int × String) × Nat) :=
  (names.map fun s => ((hasher s).toInt, s)).zipIdx.mergeSort fun a b => a.1.1 ≤ b.1.1

def hasRepeat : List Int → Bool
  | a :: b :: rest => a == b || hasRepeat (b :: rest)
  | _ => false

/-- The table of the labels, sorted by the hasher. -/
def ofLabels (r : Registry) (hasher : String → Int32) (labels : List Value) :
    Except BuildError StringTable := do
  Switch.checkCount labels.length
  let names ← Switch.names r "a string" [] 0 labels
  let order := ordered hasher names
  let hashes := order.map (·.1.1)
  return {
    cases := names
    hashes := hashes.toArray
    labels := (order.map (·.1.2)).toArray
    places := (order.map fun e => Switch.caseIndex e.2).toArray
    collisions := hasRepeat hashes
    hasher }

def labelCount (t : StringTable) : Nat := t.cases.length

def miss (t : StringTable) : Int32 := Switch.caseIndex t.labelCount

/-- The first position of the run of equal hashes around `hit`. -/
def runStart (t : StringTable) (hash : Int) (hit : Nat) : Nat :=
  hit - ((t.hashes.toList.take hit).reverse.takeWhile (· = hash)).length

/-- The position after that run. -/
def runStop (t : StringTable) (hash : Int) (hit : Nat) : Nat :=
  hit + ((t.hashes.toList.drop hit).takeWhile (· = hash)).length

/-- The case index of `s` among the labels with that hash, one of which is at
`hit`. -/
def probe (t : StringTable) (s : String) (hash : Int) (hit : Nat) : Option Int32 :=
  if t.labels[hit]? = some s then t.places[hit]?
  else if t.collisions then
    let start := t.runStart hash hit
    ((List.range' start (t.runStop hash hit - start)).find? fun i => t.labels[i]? = some s).bind
      (t.places[·]?)
  else none

def dispatch (t : StringTable) (v : Value) : Int32 :=
  match v with
  | .null => Switch.nullIndex
  | .str s =>
    let hash := (t.hasher s).toInt
    ((Switch.search t.hashes hash).bind (t.probe s hash)).getD t.miss
  | _ => t.miss

def scan (t : StringTable) (v : Value) : Int32 :=
  if v.isNull then Switch.nullIndex
  else Switch.indexOr t.labelCount (v.text?.bind (t.cases.idxOf? ·))

end StringTable

end PatternDispatch

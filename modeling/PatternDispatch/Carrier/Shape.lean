-- Shapes of carriers. A carrier keeps its parts in three regions: references,
-- narrow scalars, and wide scalars, which count as two slots each. Counts are
-- 64-bit words.
import PatternDispatch.Ty

namespace PatternDispatch

/-- Where a carrier keeps a part. -/
inductive Region where
  | ref | narrow | wide
deriving DecidableEq

namespace Region

def name : Region → String
  | .ref => "Ref"
  | .narrow => "Narrow"
  | .wide => "Wide"

def ofTy : Ty → Region
  | .ref _ => .ref
  | .scalar k => if k.isWide then .wide else .narrow

/-- The type that all parts of the region are stored as. -/
def storage : Region → Ty
  | .ref => .object
  | .narrow => .int
  | .wide => .long

end Region

/-- How many parts a carrier has in each region. -/
structure Shape where
  refs : UInt64
  narrow : UInt64
  wide : UInt64
deriving DecidableEq

namespace Shape

def add (s : Shape) : Region → Shape
  | .ref => { s with refs := s.refs + 1 }
  | .narrow => { s with narrow := s.narrow + 1 }
  | .wide => { s with wide := s.wide + 1 }

/-- The shape of a carrier for parts of these types. -/
def ofTypes (ts : List Ty) : Shape := ts.foldl (fun s t => s.add (.ofTy t)) ⟨0, 0, 0⟩

def slotCount (s : Shape) : UInt64 := s.refs + s.narrow + 2 * s.wide

def componentCount (s : Shape) : UInt64 := s.refs + s.narrow + s.wide

/-- The first canonical position of a region. -/
def offset (s : Shape) : Region → UInt64
  | .ref => 0
  | .narrow => s.refs
  | .wide => s.refs + s.narrow

def regionAt (s : Shape) (p : UInt64) : Region :=
  if p < s.refs then .ref else if p < s.refs + s.narrow then .narrow else .wide

/-- The stored types of the first `n` canonical positions. -/
def canonicalTake (s : Shape) (n : Nat) : List Ty :=
  let refs := min n s.refs.toNat
  let narrow := min (n - refs) s.narrow.toNat
  let wide := min (n - refs - narrow) s.wide.toNat
  List.replicate refs .object ++ List.replicate narrow .int ++ List.replicate wide .long

/-- The stored types of all canonical positions. -/
def canonicalTypes (s : Shape) : List Ty :=
  s.canonicalTake (s.refs.toNat + s.narrow.toNat + s.wide.toNat)

theorem canonicalTypes_eq (s : Shape) :
    s.canonicalTypes = List.replicate s.refs.toNat .object ++ List.replicate s.narrow.toNat .int ++
      List.replicate s.wide.toNat .long := by
  simp only [canonicalTypes, canonicalTake]
  congr 2 <;> congr 1 <;> omega

def name (s : Shape) : String :=
  "Carrier_o" ++ toString s.refs.toNat ++ "_i" ++ toString s.narrow.toNat ++ "_l" ++
    toString s.wide.toNat

end Shape

end PatternDispatch

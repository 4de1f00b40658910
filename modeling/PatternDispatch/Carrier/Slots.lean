-- From declared order to canonical order. Parts of one region keep their order;
-- the regions follow one another.
import PatternDispatch.Carrier.Shape

namespace PatternDispatch.Shape

/-- The canonical positions of the types, from the next free one of each region. -/
def positionsFrom (next : Region → UInt64) : List Ty → List UInt64
  | [] => []
  | t :: ts =>
    let region := Region.ofTy t
    next region :: positionsFrom (fun g => if g = region then next g + 1 else next g) ts

/-- The canonical position of each declared part. -/
def positions (s : Shape) (ts : List Ty) : List UInt64 := positionsFrom s.offset ts

/-- Parts of the region among the types. -/
def countIn (region : Region) (ts : List Ty) : Nat := ts.countP (Region.ofTy · = region)

/-- The canonical position of declared part `i` alone. -/
def positionOf? (s : Shape) (ts : List Ty) (i : Nat) : Option UInt64 :=
  ts[i]?.map fun t => s.offset (.ofTy t) + (countIn (.ofTy t) (ts.take i)).toUInt64

end PatternDispatch.Shape

-- Binary search over keys in ascending order.

namespace PatternDispatch.Switch

/-- A position of the key between `lo` and `hi`. -/
def searchIn (keys : Array Int) (key : Int) (lo hi : Nat) (bound : hi ≤ keys.size) : Option Nat :=
  if _ : lo < hi then
    let mid := lo + (hi - lo) / 2
    have : mid < keys.size := by omega
    if keys[mid] = key then some mid
    else if keys[mid] < key then searchIn keys key (mid + 1) hi bound
    else searchIn keys key lo mid (by omega)
  else none
termination_by hi - lo

/-- A position of the key; any one of several. -/
def search (keys : Array Int) (key : Int) : Option Nat := searchIn keys key 0 keys.size (Nat.le_refl _)

end PatternDispatch.Switch

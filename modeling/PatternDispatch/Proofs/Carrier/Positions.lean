-- The laws of canonical positions. The positions of a list of types are the
-- places of a row that is exactly as long, each once: the parts of one region
-- keep their order, and the regions follow one another.
import Mathlib.Algebra.Order.Ring.Nat
import Mathlib.Data.List.Nodup
import Mathlib.Data.List.Perm.Subperm
import PatternDispatch.Carrier.Slots

namespace PatternDispatch.Shape

/-! ## Counts -/

def count (s : Shape) : Region → UInt64
  | .ref => s.refs
  | .narrow => s.narrow
  | .wide => s.wide

theorem count_add (s : Shape) (g g' : Region) :
    (s.add g).count g' = if g = g' then s.count g' + 1 else s.count g' := by
  cases g <;> cases g' <;> rfl

theorem countIn_cons (g : Region) (t : Ty) (ts : List Ty) :
    countIn g (t :: ts) = countIn g ts + if Region.ofTy t = g then 1 else 0 := by
  simp [countIn, List.countP_cons]

theorem count_foldl (s : Shape) (ts : List Ty) (g : Region) :
    (ts.foldl (fun s t => s.add (.ofTy t)) s).count g = s.count g + (countIn g ts).toUInt64 := by
  induction ts generalizing s with
  | nil => simp [countIn]
  | cons t ts ih =>
    rw [List.foldl_cons, ih, count_add, countIn_cons]
    split
    · simp only [Nat.toUInt64, UInt64.ofNat_add, UInt64.ofNat_one]
      ac_rfl
    · rfl

/-- The counts are those of the types, as words. -/
theorem count_ofTypes (ts : List Ty) (g : Region) : (ofTypes ts).count g = (countIn g ts).toUInt64 := by
  rw [ofTypes, count_foldl]
  cases g <;> simp [count]

theorem countIn_add (ts : List Ty) :
    countIn .ref ts + countIn .narrow ts + countIn .wide ts = ts.length := by
  induction ts with
  | nil => rfl
  | cons t ts ih =>
    simp only [countIn_cons, List.length_cons]
    cases Region.ofTy t <;> simp <;> omega

theorem countIn_le_length (g : Region) (ts : List Ty) : countIn g ts ≤ ts.length := List.countP_le_length

theorem toNat_count {ts : List Ty} (h : ts.length < 2 ^ 64) (g : Region) :
    ((ofTypes ts).count g).toNat = countIn g ts := by
  rw [count_ofTypes, Nat.toUInt64, UInt64.toNat_ofNat_of_lt']
  exact Nat.lt_of_le_of_lt (countIn_le_length g ts) h

/-! ## Words that do not wrap -/

/-- The parts can be counted by a word. -/
def Counts (s : Shape) : Prop := s.refs.toNat + s.narrow.toNat + s.wide.toNat < 2 ^ 64

def start (s : Shape) : Region → Nat
  | .ref => 0
  | .narrow => s.refs.toNat
  | .wide => s.refs.toNat + s.narrow.toNat

def size (s : Shape) : Nat := s.refs.toNat + s.narrow.toNat + s.wide.toNat

/-- The slots, counted without a bound. -/
def slots (s : Shape) : Nat := s.refs.toNat + s.narrow.toNat + 2 * s.wide.toNat

/-- The word that counts the slots has lost whole turns. -/
theorem toNat_slotCount_eq_mod (s : Shape) : s.slotCount.toNat = s.slots % 2 ^ 64 := by
  have htwo : (2 : UInt64).toNat = 2 := rfl
  simp only [slotCount, UInt64.toNat_add, UInt64.toNat_mul, htwo, slots]
  omega

variable {s : Shape}

theorem counts_of_slots (h : s.slots < 2 ^ 64) : s.Counts := by
  simp only [slots] at h
  simp only [Counts]
  omega

theorem toNat_componentCount (h : s.Counts) : s.componentCount.toNat = s.size := by
  simp only [Counts] at h
  simp only [componentCount, UInt64.toNat_add, size]
  omega

theorem toNat_offset (h : s.Counts) (g : Region) : (s.offset g).toNat = s.start g := by
  simp only [Counts] at h
  cases g with
  | ref => rfl
  | narrow => rfl
  | wide =>
    simp only [offset, UInt64.toNat_add, start]
    omega

/-- A place of a region lies in it. -/
theorem regionAt_of_mem (h : s.Counts) {g : Region} {p : UInt64} (lo : s.start g ≤ p.toNat)
    (hi : p.toNat < s.start g + (s.count g).toNat) : s.regionAt p = g := by
  simp only [Counts] at h
  unfold regionAt
  cases g <;> simp only [start, count] at lo hi <;>
    simp only [UInt64.lt_iff_toNat_lt, UInt64.toNat_add] <;>
    split <;> (try split) <;> first | rfl | omega

/-- Every place of a row lies in the region that `regionAt` tells. -/
theorem mem_regionAt (h : s.Counts) {p : UInt64} (hp : p.toNat < s.size) :
    s.start (s.regionAt p) ≤ p.toNat ∧
      p.toNat < s.start (s.regionAt p) + (s.count (s.regionAt p)).toNat := by
  simp only [Counts, size] at h hp
  unfold regionAt
  simp only [UInt64.lt_iff_toNat_lt, UInt64.toNat_add]
  split
  · simp only [start, count]
    omega
  · split <;> simp only [start, count] <;> omega

/-! ## The position of one part -/

theorem positionsFrom_getElem? (next : Region → UInt64) (ts : List Ty) (i : Nat) :
    (positionsFrom next ts)[i]? =
      ts[i]?.map fun t => next (.ofTy t) + (countIn (.ofTy t) (ts.take i)).toUInt64 := by
  induction ts generalizing next i with
  | nil => simp [positionsFrom]
  | cons t ts ih =>
    cases i with
    | zero => simp [positionsFrom, countIn]
    | succ i =>
      simp only [positionsFrom, List.getElem?_cons_succ, ih, List.take_succ_cons, countIn_cons]
      congr 1
      funext t'
      by_cases hr : Region.ofTy t = Region.ofTy t'
      · simp only [hr, if_true, Nat.toUInt64, UInt64.ofNat_add, UInt64.ofNat_one]
        ac_rfl
      · simp only [hr, Ne.symm hr, if_false, Nat.add_zero]

/-- The position of one part alone is its entry in the list of all. -/
theorem positions_getElem? (s : Shape) (ts : List Ty) (i : Nat) :
    (s.positions ts)[i]? = s.positionOf? ts i :=
  positionsFrom_getElem? s.offset ts i

theorem positions_length (s : Shape) (ts : List Ty) : (s.positions ts).length = ts.length := by
  apply Nat.le_antisymm
  · apply List.getElem?_eq_none_iff.mp
    rw [positions_getElem?, positionOf?, List.getElem?_eq_none (Nat.le_refl _)]
    rfl
  · apply List.getElem?_eq_none_iff.mp
    have h := positions_getElem? s ts (s.positions ts).length
    rw [List.getElem?_eq_none (Nat.le_refl _), positionOf?] at h
    exact Option.map_eq_none_iff.mp h.symm

variable {ts : List Ty}

theorem counts_ofTypes (h : ts.length < 2 ^ 64) : (ofTypes ts).Counts ∧ (ofTypes ts).size = ts.length := by
  have hr := toNat_count h .ref
  have hn := toNat_count h .narrow
  have hw := toNat_count h .wide
  have := countIn_add ts
  simp only [count] at hr hn hw
  simp only [Counts, size]
  omega

/-- Wide parts count as two slots. -/
theorem slots_ofTypes (h : ts.length < 2 ^ 64) : (ofTypes ts).slots = ts.length + countIn .wide ts := by
  have hsize := (counts_ofTypes h).2
  have hw := toNat_count h .wide
  simp only [size] at hsize
  simp only [count] at hw
  simp only [slots]
  omega

/-- Parts of the region before part `i` are fewer than all of the region. -/
theorem countIn_take_lt {i j : Nat} {t : Ty} (hi : ts[i]? = some t) (hij : i < j) :
    countIn (.ofTy t) (ts.take i) < countIn (.ofTy t) (ts.take j) := by
  have hsplit : ts.take (i + 1) = ts.take i ++ [t] := by
    rw [List.take_add_one, hi]
    rfl
  have hle : countIn (.ofTy t) (ts.take (i + 1)) ≤ countIn (.ofTy t) (ts.take j) :=
    (List.take_sublist_take_left hij).countP_le
  have hone : countIn (.ofTy t) (ts.take (i + 1)) = countIn (.ofTy t) (ts.take i) + 1 := by
    rw [hsplit]
    simp [countIn, List.countP_append]
  omega

/-- A position tells where its region starts and how many parts of the region
come before it. -/
theorem toNat_positionOf? (h : ts.length < 2 ^ 64) {i : Nat} {t : Ty} {p : UInt64}
    (hi : ts[i]? = some t) (hp : (ofTypes ts).positionOf? ts i = some p) :
    p.toNat = (ofTypes ts).start (.ofTy t) + countIn (.ofTy t) (ts.take i) ∧
      p.toNat < (ofTypes ts).start (.ofTy t) + ((ofTypes ts).count (.ofTy t)).toNat ∧
      p.toNat < ts.length := by
  obtain ⟨hc, hs⟩ := counts_ofTypes h
  have hlt : i < ts.length := (List.getElem?_eq_some_iff.mp hi).1
  have hbefore := countIn_take_lt hi hlt
  rw [List.take_length] at hbefore
  have hoff := toNat_offset hc (.ofTy t)
  have hall : (ofTypes ts).start (.ofTy t) + countIn (.ofTy t) ts ≤ ts.length := by
    have hr := toNat_count h .ref
    have hn := toNat_count h .narrow
    have hw := toNat_count h .wide
    have hadd := countIn_add ts
    simp only [count] at hr hn hw
    cases Region.ofTy t <;> simp only [start] <;> omega
  have hcount : ((countIn (.ofTy t) (ts.take i)).toUInt64).toNat = countIn (.ofTy t) (ts.take i) :=
    UInt64.toNat_ofNat_of_lt' (by simp only [UInt64.size]; omega)
  rw [positionOf?, hi, Option.map_some] at hp
  cases hp
  rw [UInt64.toNat_add, hoff, hcount, toNat_count h, Nat.mod_eq_of_lt (by omega)]
  omega

theorem regionAt_position (h : ts.length < 2 ^ 64) {i : Nat} {t : Ty} {p : UInt64}
    (hi : ts[i]? = some t) (hp : (ofTypes ts).positionOf? ts i = some p) :
    (ofTypes ts).regionAt p = .ofTy t := by
  obtain ⟨hlo, hhi, -⟩ := toNat_positionOf? h hi hp
  exact regionAt_of_mem (counts_ofTypes h).1 (by omega) hhi

/-! ## All positions -/

/-- Parts of one region keep their order. -/
theorem position_lt (h : ts.length < 2 ^ 64) {i j : Nat} {t u : Ty} {p q : UInt64} (hij : i < j)
    (hti : ts[i]? = some t) (htj : ts[j]? = some u) (hregion : Region.ofTy t = .ofTy u)
    (hp : (ofTypes ts).positionOf? ts i = some p) (hq : (ofTypes ts).positionOf? ts j = some q) : p < q := by
  have hpi := (toNat_positionOf? h hti hp).1
  have hqj := (toNat_positionOf? h htj hq).1
  have hbefore := countIn_take_lt hti hij
  rw [← hregion] at hqj
  rw [UInt64.lt_iff_toNat_lt]
  omega

/-- Two parts never share a position. -/
theorem position_inj (h : ts.length < 2 ^ 64) {i j : Nat} {p : UInt64}
    (hi : (ofTypes ts).positionOf? ts i = some p) (hj : (ofTypes ts).positionOf? ts j = some p) :
    i = j := by
  obtain ⟨t, hti, -⟩ := Option.map_eq_some_iff.mp hi
  obtain ⟨u, htj, -⟩ := Option.map_eq_some_iff.mp hj
  have hregion : Region.ofTy t = Region.ofTy u := by
    rw [← regionAt_position h hti hi, regionAt_position h htj hj]
  rcases Nat.lt_trichotomy i j with hlt | heq | hgt
  · exact absurd (position_lt h hlt hti htj hregion hi hj) (UInt64.lt_irrefl p)
  · exact heq
  · exact absurd (position_lt h hgt htj hti hregion.symm hj hi) (UInt64.lt_irrefl p)

/-- The positions are the places of the row in another order: each place once. -/
theorem positions_perm (h : ts.length < 2 ^ 64) :
    (((ofTypes ts).positions ts).map UInt64.toNat).Perm (List.range ts.length) := by
  have hnodup : (((ofTypes ts).positions ts).map UInt64.toNat).Nodup := by
    rw [List.nodup_iff_getElem?_ne_getElem?]
    intro i j hij hj heq
    rw [List.length_map, positions_length] at hj
    rw [List.getElem?_map, List.getElem?_map, positions_getElem?, positions_getElem?] at heq
    have hti := List.getElem?_eq_getElem (Nat.lt_trans hij hj)
    have htj := List.getElem?_eq_getElem hj
    obtain ⟨p, hp⟩ : ∃ p, (ofTypes ts).positionOf? ts i = some p := ⟨_, by rw [positionOf?, hti]; rfl⟩
    obtain ⟨q, hq⟩ : ∃ q, (ofTypes ts).positionOf? ts j = some q := ⟨_, by rw [positionOf?, htj]; rfl⟩
    rw [hp, hq, Option.map_some, Option.map_some, Option.some.injEq] at heq
    obtain rfl := UInt64.toNat_inj.mp heq
    have := position_inj h hp hq
    omega
  have hsub : ((ofTypes ts).positions ts).map UInt64.toNat ⊆ List.range ts.length := by
    intro n hn
    obtain ⟨p, hp, rfl⟩ := List.mem_map.mp hn
    obtain ⟨i, hi⟩ := List.mem_iff_getElem?.mp hp
    rw [positions_getElem?] at hi
    obtain ⟨t, ht, -⟩ := Option.map_eq_some_iff.mp hi
    exact List.mem_range.mpr (toNat_positionOf? h ht hi).2.2
  have hlen : (((ofTypes ts).positions ts).map UInt64.toNat).length = (List.range ts.length).length := by
    rw [List.length_map, positions_length, List.length_range]
  exact (List.subperm_of_subset hnodup hsub).perm_of_length_le (Nat.le_of_eq hlen.symm)

end PatternDispatch.Shape

-- The law of the layout. The parts of a carrier and the places of its row belong
-- together one to one: every place is written once, from the part that belongs there,
-- and no place that is written or read lies outside the row.
import Mathlib.Data.Set.Function
import PatternDispatch.Proofs.Reachable

namespace PatternDispatch

variable {ts : List Ty}

namespace Shape

/-! ## Parts and places -/

/-- Part `i` has a place in the row. -/
theorem exists_position {i : Nat} {t : Ty} (s : Shape) (ht : ts[i]? = some t) :
    ∃ p, s.positionOf? ts i = some p := ⟨_, by rw [positionOf?, ht]; rfl⟩

/-- The row has as many places as there are parts. -/
theorem toNat_componentCount_ofTypes (h : ts.length < 2 ^ 64) :
    (ofTypes ts).componentCount.toNat = ts.length := by
  obtain ⟨hcounts, hsize⟩ := counts_ofTypes h
  rw [toNat_componentCount hcounts, hsize]

/-- Each part has a place, no two have the same, and none is left over. -/
theorem positions_bijOn (h : ts.length < 2 ^ 64) :
    Set.BijOn (fun i => ((ofTypes ts).positions ts).getD i 0) {i | i < ts.length}
      {p | p < (ofTypes ts).componentCount} := by
  have hplace : ∀ i < ts.length, ∃ t, ts[i]? = some t ∧
      (ofTypes ts).positionOf? ts i = some (((ofTypes ts).positions ts).getD i 0) := by
    intro i hi
    have ht := List.getElem?_eq_getElem hi
    obtain ⟨p, hp⟩ := exists_position (ofTypes ts) ht
    refine ⟨_, ht, ?_⟩
    rw [List.getD_eq_getElem?_getD, positions_getElem?, hp, Option.getD_some]
  refine ⟨?_, ?_, ?_⟩
  · intro i hi
    obtain ⟨t, ht, hp⟩ := hplace i hi
    apply UInt64.lt_iff_toNat_lt.mpr
    rw [toNat_componentCount_ofTypes h]
    exact (toNat_positionOf? h ht hp).2.2
  · intro i hi j hj heq
    obtain ⟨t, -, hp⟩ := hplace i hi
    obtain ⟨u, -, hq⟩ := hplace j hj
    simp only at heq
    rw [heq] at hp
    exact position_inj h hp hq
  · intro p hp
    have hlt := UInt64.lt_iff_toNat_lt.mp hp
    rw [toNat_componentCount_ofTypes h] at hlt
    obtain ⟨i, t, q, ht, hq, hqp⟩ := TypedCarrier.exists_position h hlt
    refine ⟨i, (List.getElem?_eq_some_iff.mp ht).1, ?_⟩
    simp only [List.getD_eq_getElem?_getD, positions_getElem?, hq, Option.getD_some]
    exact UInt64.toNat_inj.mp hqp

/-- Every place stands once among the positions. -/
theorem count_positions (h : ts.length < 2 ^ 64) {n : Nat} (hn : n < (ofTypes ts).componentCount.toNat) :
    (((ofTypes ts).positions ts).map UInt64.toNat).count n = 1 := by
  rw [toNat_componentCount_ofTypes h] at hn
  rw [(positions_perm h).count_eq]
  exact List.count_eq_one_of_mem List.nodup_range (List.mem_range.mpr hn)

end Shape

namespace TypedCarrier

open CanonicalCarrier (ofShape)

/-! ## The law -/

/-- The parts of a list of types, and the places of the row for their shape, are in
bijection: part `i` stands in its own region, after the parts of the region before it,
and its place is the same in the list of all positions and alone. So the constructor
writes every place of its row once, each with the part that belongs there, and each
accessor has a place of the carrier to read. -/
theorem each_part_has_a_place_of_its_own (h : ts.length < 2 ^ 64) :
    ((Shape.ofTypes ts).positions ts).length = ts.length ∧
      Set.BijOn (fun i => ((Shape.ofTypes ts).positions ts).getD i 0) {i | i < ts.length}
        {p | p < (Shape.ofTypes ts).componentCount} ∧
      (∀ (i : Nat) t p, ts[i]? = some t → ((Shape.ofTypes ts).positions ts)[i]? = some p →
        (Shape.ofTypes ts).regionAt p = .ofTy t ∧
          p.toNat = ((Shape.ofTypes ts).offset (.ofTy t)).toNat + Shape.countIn (.ofTy t) (ts.take i)) ∧
      (∀ (i j : Nat) t u p q, i < j → ts[i]? = some t → ts[j]? = some u → Region.ofTy t = .ofTy u →
        ((Shape.ofTypes ts).positions ts)[i]? = some p → ((Shape.ofTypes ts).positions ts)[j]? = some q →
        p < q) ∧
      (∀ i, (Shape.ofTypes ts).positionOf? ts i = ((Shape.ofTypes ts).positions ts)[i]?) ∧
      (∀ n < (Shape.ofTypes ts).componentCount.toNat,
        (((Shape.ofTypes ts).positions ts).map UInt64.toNat).count n = 1) ∧
      (∀ args row, arrange? (.ofTypes ts) ts args = some row →
        row.length = (Shape.ofTypes ts).componentCount.toNat ∧
          ∀ (i : Nat) t v p, ts[i]? = some t → args[i]? = some v →
            ((Shape.ofTypes ts).positions ts)[i]? = some p →
            p.toNat < row.length ∧ row[p.toNat]? = t.encode v) ∧
      ∀ (st st' : Store) raw, st.Reachable → (ofShape (.ofTypes ts)).exec st = (.ok raw, st') →
        ∀ p ∈ (Shape.ofTypes ts).positions ts, p.toNat < raw.accessors.length := by
  obtain ⟨hcounts, -⟩ := Shape.counts_ofTypes h
  have hbij : Set.BijOn _ _ _ := Shape.positions_bijOn h
  refine ⟨Shape.positions_length _ ts, hbij, ?_, ?_, ?_, ?_, ?_, ?_⟩
  · intro i t p ht hp
    rw [Shape.positions_getElem?] at hp
    refine ⟨Shape.regionAt_position h ht hp, ?_⟩
    rw [Shape.toNat_offset hcounts]
    exact (Shape.toNat_positionOf? h ht hp).1
  · intro i j t u p q hij ht hu hregion hp hq
    rw [Shape.positions_getElem?] at hp hq
    exact Shape.position_lt h hij ht hu hregion hp hq
  · exact fun i => (Shape.positions_getElem? _ ts i).symm
  · exact fun n hn => Shape.count_positions h hn
  · intro args row hrow
    obtain ⟨hlen, hplaces⟩ := arranged h hrow
    refine ⟨hlen.trans (Shape.toNat_componentCount_ofTypes h).symm, ?_⟩
    intro i t v p ht hv hp
    rw [Shape.positions_getElem?] at hp
    obtain ⟨v', w, hv', henc, hw⟩ := hplaces i t p ht hp
    cases hv.symm.trans hv'
    exact ⟨(List.getElem?_eq_some_iff.mp hw).1, hw.trans henc.symm⟩
  · intro st st' raw hst hraw p hp
    obtain ⟨hserves, -⟩ := (CanonicalCarrier.ofShape_sound hst.sound).2 raw st' hraw
    obtain ⟨i, hi⟩ := List.mem_iff_getElem?.mp hp
    rw [Shape.positions_getElem?] at hi
    obtain ⟨t, ht, -⟩ := Option.map_eq_some_iff.mp hi
    rw [hserves.count, Shape.toNat_componentCount_ofTypes h]
    exact (Shape.toNat_positionOf? h ht hi).2.2

/-- A list of types of all three regions, not in their order. -/
def mixed : List Ty := [.long, .string, .scalar .boolean, .scalar .double]

/-- The law on it: the string comes first in the row, then the boolean, and the two wide
parts keep their order. -/
theorem four_parts_have_places_of_their_own :
    mixed.length < 2 ^ 64 ∧ (Shape.ofTypes mixed).positions mixed = [2, 0, 1, 3] ∧
      ∃ row, arrange? (.ofTypes mixed) mixed [.long 7, .str "x", .bool true, .double 0] = some row ∧
        row.length = 4 ∧ row[2]? = some (.long 7) ∧ (2 : UInt64) < 3 := by
  have h : mixed.length < 2 ^ 64 := by decide
  obtain ⟨-, -, -, horder, -, -, hrow, -⟩ := each_part_has_a_place_of_its_own h
  obtain ⟨hlen, hplaces⟩ := hrow [.long 7, .str "x", .bool true, .double 0] _ rfl
  exact ⟨h, rfl, _, rfl, hlen, (hplaces 0 .long (.long 7) 2 rfl rfl rfl).2,
    horder 0 3 .long (.scalar .double) 2 3 (by decide) rfl rfl rfl rfl rfl⟩

end TypedCarrier

end PatternDispatch

-- The law of the ceiling on slots. The word that is compared with it has lost
-- whole turns, so a shape whose slots wrap to a small number passes; below the
-- ceiling all counts are exact.
import PatternDispatch.Proofs.Carrier.Naming
import PatternDispatch.Proofs.Reachable

namespace PatternDispatch

variable {s : Shape}

/-! ## Stored types by position -/

/-- The stored type at a place is that of the region in which the place lies. -/
theorem Shape.canonicalTypes_getElem? (h : s.Counts) {p : UInt64} (hp : p.toNat < s.size) :
    s.canonicalTypes[p.toNat]? = some (s.regionAt p).storage := by
  obtain ⟨hlo, hhi⟩ := Shape.mem_regionAt h hp
  rw [Shape.canonicalTypes_eq]
  cases hregion : s.regionAt p with
  | ref =>
    simp only [hregion, Shape.start, Shape.count] at hlo hhi
    rw [List.getElem?_append_left (by simp; omega), List.getElem?_append_left (by simp; omega),
      List.getElem?_replicate_of_lt (by omega)]
    rfl
  | narrow =>
    simp only [hregion, Shape.start, Shape.count] at hlo hhi
    rw [List.getElem?_append_left (by simp; omega), List.getElem?_append_right (by simp; omega),
      List.length_replicate, List.getElem?_replicate_of_lt (by omega)]
    rfl
  | wide =>
    simp only [hregion, Shape.start, Shape.count] at hlo hhi
    rw [List.getElem?_append_right (by simp; omega), List.length_append, List.length_replicate,
      List.length_replicate, List.getElem?_replicate_of_lt (by omega)]
    rfl

/-- A place stands in its region at a distance from the start that the region has. -/
theorem Shape.sub_offset_lt (h : s.Counts) {p : UInt64} (hp : p.toNat < s.size) :
    s.offset (s.regionAt p) ≤ p ∧ p - s.offset (s.regionAt p) < s.count (s.regionAt p) := by
  obtain ⟨hlo, hhi⟩ := Shape.mem_regionAt h hp
  have hoff := Shape.toNat_offset h (s.regionAt p)
  have hle : s.offset (s.regionAt p) ≤ p := by
    rw [UInt64.le_iff_toNat_le, hoff]
    exact hlo
  refine ⟨hle, ?_⟩
  rw [UInt64.lt_iff_toNat_lt, UInt64.toNat_sub_of_le _ _ hle, hoff]
  omega

namespace CanonicalCarrier

/-- A request fails for its slots just when the word that counts them is too large. -/
theorem exceeds_iff (s : Shape) (st : Store) :
    (∃ shape slots max, ((ofShape s).exec st).1 = .error (.arityExceeded shape slots max)) ↔
      254 < s.slots % 2 ^ 64 := by
  rw [← maxSlots_lt_iff]
  have outcome := ofShape_outcome s st
  generalize (ofShape s).exec st = out at outcome
  cases outcome with
  | exceeded h => exact ⟨fun _ => h, fun _ => ⟨_, _, _, rfl⟩⟩
  | listed h => simp [h]
  | kept h => simp [h]
  | made h => simp [h]
  | taken h => simp [h, nameTaken]

/-- A request for more slots than the ceiling fails with them, unless they wrap
to a number below it; and below the ceiling every count is exact. -/
theorem the_ceiling_is_exact_unless_the_slots_wrap {st : Store} (hst : st.Reachable) (s : Shape) :
    (((∃ shape slots max, ((ofShape s).exec st).1 = .error (.arityExceeded shape slots max)) ↔ 254 < s.slots) ↔
      ¬ (2 ^ 64 ≤ s.slots ∧ s.slots % 2 ^ 64 ≤ 254)) ∧
    (254 < s.slots % 2 ^ 64 →
      (ofShape s).exec st = (.error (.arityExceeded s.name (s.slots % 2 ^ 64) 254), st)) ∧
    (s.slots ≤ 254 →
      s.slotCount.toNat = s.slots ∧
      s.componentCount.toNat = s.refs.toNat + s.narrow.toNat + s.wide.toNat ∧
      ((s.offset .ref).toNat = 0 ∧ (s.offset .narrow).toNat = s.refs.toNat ∧
        (s.offset .wide).toNat = s.refs.toNat + s.narrow.toNat) ∧
      (st.FreeFor s → ∃ c t, (ofShape s).exec st = (.ok c, t)) ∧
      (∀ c t, (ofShape s).exec st = (.ok c, t) →
        c.accessors.length = s.refs.toNat + s.narrow.toNat + s.wide.toNat) ∧
      ∀ p : UInt64, p < s.componentCount →
        s.canonicalTypes[p.toNat]? = some (s.regionAt p).storage ∧
        s.offset (s.regionAt p) ≤ p ∧ p - s.offset (s.regionAt p) < s.count (s.regionAt p)) := by
  refine ⟨?_, ?_, ?_⟩
  · rw [exceeds_iff]
    omega
  · intro hslots
    have hmax := (maxSlots_lt_iff s).mpr hslots
    rw [ofShape, if_pos hmax, Shape.toNat_slotCount_eq_mod]
    rfl
  · intro hslots
    have hmod : s.slots % 2 ^ 64 = s.slots := Nat.mod_eq_of_lt (by omega)
    have hmax := not_maxSlots_lt hslots
    have hcounts := Shape.counts_of_slots (s := s) (by omega)
    have hcount := Shape.toNat_componentCount hcounts
    refine ⟨?_, hcount, ?_, ?_, ?_, ?_⟩
    · rw [Shape.toNat_slotCount_eq_mod, hmod]
    · exact ⟨Shape.toNat_offset hcounts .ref, Shape.toNat_offset hcounts .narrow,
        Shape.toNat_offset hcounts .wide⟩
    · intro hname
      exact ofShape_ok hmax fun _ => hname
    · intro c t hc
      obtain ⟨hserves, -⟩ := (ofShape_sound hst.sound).2 c t hc
      exact hserves.count.trans hcount
    · intro p hp
      rw [UInt64.lt_iff_toNat_lt, hcount] at hp
      exact ⟨Shape.canonicalTypes_getElem? hcounts hp, Shape.sub_offset_lt hcounts hp⟩

theorem six_parts_have_six_accessors :
    ∃ c t, (ofShape ⟨1, 2, 3⟩).exec (.initial []) = (.ok c, t) ∧ c.accessors.length = 6 ∧
      (Shape.mk 1 2 3).slotCount.toNat = 9 := by
  have hfree : (Store.initial []).FreeFor ⟨1, 2, 3⟩ := Store.freeFor_of_lookup_none (by decide) rfl
  obtain ⟨-, -, hexact⟩ :=
    the_ceiling_is_exact_unless_the_slots_wrap (Store.reachable_initial []) ⟨1, 2, 3⟩
  obtain ⟨hslots, -, -, hmade, haccessors, -⟩ := hexact (by decide)
  obtain ⟨c, t, hc⟩ := hmade hfree
  exact ⟨c, t, hc, haccessors c t hc, hslots⟩

/-- The slots of two to the sixty-third wide parts wrap to none: the request goes on
to the name of the class. -/
theorem wrapped_slots_pass_the_ceiling :
    254 < (Shape.mk 0 0 9223372036854775808).slots ∧
    ((ofShape ⟨0, 0, 9223372036854775808⟩).exec
      ((Build.define (.named "Carrier_o0_i0_l9223372036854775808")).exec (.initial [])).2).1 =
      .error (.specializationFailed "Carrier_o0_i0_l9223372036854775808"
        "class name is already taken by a non-carrier class") := by
  refine ⟨by decide, ?_⟩
  rfl

end CanonicalCarrier

end PatternDispatch

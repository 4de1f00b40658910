-- The laws of carriers in declared order. The constructor takes one value for
-- each type, a scalar of exactly that kind where the type is one, and part `i`
-- of the carrier decodes to the value that went in at `i`.
import PatternDispatch.Carrier.Typed
import PatternDispatch.Proofs.Carrier.Canonical

namespace PatternDispatch

/-! ## Values at their places -/

section Places

variable {α : Type} {row : List α} {places : List (UInt64 × α)}

theorem length_foldl_set : (places.foldl (fun row (p, v) => row.set p.toNat v) row).length = row.length := by
  induction places generalizing row with
  | nil => rfl
  | cons x places ih => rw [List.foldl_cons, ih, List.length_set]

theorem getElem?_foldl_set_of_not_mem {n : Nat} (h : n ∉ places.map (·.1.toNat)) :
    (places.foldl (fun row (p, v) => row.set p.toNat v) row)[n]? = row[n]? := by
  induction places generalizing row with
  | nil => rfl
  | cons x places ih =>
    rw [List.map_cons, List.mem_cons, not_or] at h
    rw [List.foldl_cons, ih h.2, List.getElem?_set_ne (Ne.symm h.1)]

/-- A place that is written once holds what was written to it. -/
theorem getElem?_foldl_set_of_mem (hnodup : (places.map (·.1.toNat)).Nodup) {p : UInt64} {v : α}
    (hmem : (p, v) ∈ places) (hlt : p.toNat < row.length) :
    (places.foldl (fun row (p, v) => row.set p.toNat v) row)[p.toNat]? = some v := by
  induction places generalizing row with
  | nil => cases hmem
  | cons x places ih =>
    rw [List.map_cons, List.nodup_cons] at hnodup
    rw [List.foldl_cons]
    rcases List.mem_cons.mp hmem with rfl | hmem
    · rw [getElem?_foldl_set_of_not_mem hnodup.1, List.getElem?_set_self hlt]
    · apply ih hnodup.2 hmem
      rwa [List.length_set]

end Places

namespace TypedCarrier

open CanonicalCarrier (Admits)

variable {ts : List Ty} {args row : List Value}

/-! ## Which values are taken -/

/-- Whether the constructor for the types takes the values. -/
structure Fits (ts : List Ty) (args : List Value) : Prop where
  length_eq : args.length = ts.length
  takes : ∀ (i : Nat) t v, ts[i]? = some t → args[i]? = some v → t.Takes v

theorem arrange?_isSome_iff (s : Shape) : (arrange? s ts args).isSome ↔ Fits ts args := by
  unfold arrange?
  split
  · rename_i hlen
    -- Only an encoding can fail: what is encoded always fills the row.
    rw [bind_pure_comp, Option.map_eq_map, Option.isSome_map, option_mapM_isSome]
    constructor
    · intro h
      refine ⟨hlen, ?_⟩
      intro i t v ht hv
      apply (Ty.encode_isSome_iff t v).mp
      apply h (t, v)
      exact List.mem_iff_getElem?.mpr ⟨i, List.getElem?_zip_eq_some.mpr ⟨ht, hv⟩⟩
    · rintro h ⟨t, v⟩ hmem
      obtain ⟨i, hi⟩ := List.mem_iff_getElem?.mp hmem
      obtain ⟨ht, hv⟩ := List.getElem?_zip_eq_some.mp hi
      exact (Ty.encode_isSome_iff t v).mpr (h.takes i t v ht hv)
  · rename_i hlen
    exact ⟨fun h => Bool.noConfusion h, fun h => absurd h.length_eq hlen⟩

/-! ## The arranged row -/

/-- Each value stands encoded at the canonical position of its part. -/
theorem arranged (h : ts.length < 2 ^ 64) (hrow : arrange? (.ofTypes ts) ts args = some row) :
    row.length = ts.length ∧
      ∀ (i : Nat) t p, ts[i]? = some t → (Shape.ofTypes ts).positionOf? ts i = some p →
        ∃ v w, args[i]? = some v ∧ t.encode v = some w ∧ row[p.toNat]? = some w := by
  unfold arrange? at hrow
  split at hrow
  · rename_i hlen
    obtain ⟨stored, hstored, hrow⟩ := Option.bind_eq_some_iff.mp hrow
    cases hrow
    have all := option_mapM_some hstored
    have hcount : stored.length = ts.length := by
      have := all.length_eq
      rw [List.length_zip] at this
      omega
    rw [length_foldl_set, List.length_replicate]
    refine ⟨rfl, ?_⟩
    intro i t p ht hp
    have hi := (List.getElem?_eq_some_iff.mp ht).1
    obtain ⟨v, hv⟩ : ∃ v, args[i]? = some v := ⟨_, List.getElem?_eq_getElem (hlen ▸ hi)⟩
    have hzip : (ts.zip args)[i]? = some (t, v) := List.getElem?_zip_eq_some.mpr ⟨ht, hv⟩
    obtain ⟨w, hw, henc⟩ := getElem?_of_forall₂_left all hzip
    refine ⟨v, w, hv, henc, ?_⟩
    apply getElem?_foldl_set_of_mem
    · have hkeys : (((Shape.ofTypes ts).positions ts).zip stored).map (UInt64.toNat ∘ Prod.fst) =
          ((Shape.ofTypes ts).positions ts).map UInt64.toNat := by
        have hle : ((Shape.ofTypes ts).positions ts).length ≤ stored.length := by
          rw [Shape.positions_length]
          omega
        rw [← List.map_map, List.map_fst_zip hle]
      apply (List.Perm.nodup_iff _).mpr List.nodup_range
      · exact ts.length
      · exact hkeys ▸ Shape.positions_perm h
    · apply List.mem_iff_getElem?.mpr
      refine ⟨i, List.getElem?_zip_eq_some.mpr ⟨?_, hw⟩⟩
      rw [Shape.positions_getElem?, hp]
    · rw [List.length_replicate]
      exact (Shape.toNat_positionOf? h ht hp).2.2
  · cases hrow

/-- Every place of the row is the position of a part. -/
theorem exists_position (h : ts.length < 2 ^ 64) {n : Nat} (hn : n < ts.length) :
    ∃ i t p, ts[i]? = some t ∧ (Shape.ofTypes ts).positionOf? ts i = some p ∧ p.toNat = n := by
  have hmem := (Shape.positions_perm h).mem_iff.mpr (List.mem_range.mpr hn)
  obtain ⟨p, hp, hpn⟩ := List.mem_map.mp hmem
  obtain ⟨i, hi⟩ := List.mem_iff_getElem?.mp hp
  rw [Shape.positions_getElem?] at hi
  obtain ⟨t, ht, -⟩ := Option.map_eq_some_iff.mp hi
  exact ⟨i, t, p, ht, hi, hpn⟩

/-- The arranged row is taken by the constructor in canonical order. -/
theorem admits_arranged (h : ts.length < 2 ^ 64) (hrow : arrange? (.ofTypes ts) ts args = some row)
    (own : Bool) : Admits (.ofTypes ts) own row := by
  obtain ⟨hlen, hplaces⟩ := arranged h hrow
  refine ⟨by rw [hlen, (Shape.counts_ofTypes h).2], ?_⟩
  intro _ n w hw
  have hn : n < ts.length := hlen ▸ (List.getElem?_eq_some_iff.mp hw).1
  obtain ⟨i, t, p, ht, hp, rfl⟩ := exists_position h hn
  obtain ⟨v, w', -, henc, hw'⟩ := hplaces i t p ht hp
  rw [hw, Option.some.injEq] at hw'
  subst hw'
  rw [Nat.toUInt64, UInt64.ofNat_toNat, Shape.regionAt_position h ht hp]
  exact Ty.encode_holds henc

/-! ## Constructor and accessors -/

/-- The constructor in declared order, of carriers of a class of their own or of
carriers in one row. -/
def construct (own : Option ClassId) (ts : List Ty) (args : List Value) : Run Value := do
  CanonicalCarrier.construct (.ofTypes ts) own (← Run.ofOption (arrange? (.ofTypes ts) ts args))

/-- What stands at a canonical position, as a value of the type. -/
def readTyped (own : Bool) (s : Shape) (t : Ty) (p : UInt64) (w : Value) : Option Value :=
  (CanonicalCarrier.readAt own s p w).bind t.decode

/-- Part `i` of a carrier for the types. -/
def readAt (own : Bool) (ts : List Ty) (i : Nat) (w : Value) : Option Value := do
  readTyped own (.ofTypes ts) (← ts[i]?) (← (Shape.ofTypes ts).positionOf? ts i) w

variable {own : Option ClassId} {r : Registry} {st : RunState}

theorem construct_isSome_iff (h : ts.length < 2 ^ 64) :
    ((construct own ts args).exec r st).1.isSome ↔ Fits ts args := by
  rw [← arrange?_isSome_iff (.ofTypes ts), construct, Run.exec_bind, Run.exec_ofOption]
  cases hrow : arrange? (.ofTypes ts) ts args with
  | none => rfl
  | some row =>
    simp only [Option.isSome_some, iff_true]
    exact (CanonicalCarrier.construct_isSome_iff (Shape.counts_ofTypes h).1).mpr (admits_arranged h hrow _)

/-- Every part of a new carrier comes back as it went in, the floating ones bit
for bit, however the carrier is stored. -/
theorem readAt_construct (h : ts.length < 2 ^ 64) {w : Value}
    (hw : ((construct own ts args).exec r st).1 = some w) (i : Nat) :
    readAt own.isSome ts i w = args[i]? := by
  have hfits := (construct_isSome_iff h).mp (by rw [hw]; rfl)
  rw [construct, Run.exec_bind, Run.exec_ofOption] at hw
  cases hrow : arrange? (.ofTypes ts) ts args with
  | none => simp [hrow] at hw
  | some row =>
    simp only [hrow] at hw
    unfold readAt
    cases ht : ts[i]? with
    | none =>
      have hi := List.getElem?_eq_none_iff.mp ht
      rw [List.getElem?_eq_none (hfits.length_eq ▸ hi)]
      rfl
    | some t =>
      obtain ⟨p, hp⟩ : ∃ p, (Shape.ofTypes ts).positionOf? ts i = some p := ⟨_, by rw [Shape.positionOf?, ht]; rfl⟩
      obtain ⟨hc, hsize⟩ := Shape.counts_ofTypes h
      obtain ⟨v, x, hv, henc, hx⟩ := (arranged h hrow).2 i t p ht hp
      have hpos := (Shape.toNat_positionOf? h ht hp).2.2
      have hread := CanonicalCarrier.readAt_construct hc hw (p := p) (by omega)
      rw [hp, hv]
      simp only [Option.bind_eq_bind, Option.bind_some, readTyped, hread, hx]
      exact Ty.decode_encode henc

/-- Carriers have parts for a word of types only. -/
theorem words_of_construct {w : Value} (hw : ((construct own ts args).exec r st).1 = some w) :
    ts.length < 2 ^ 64 := by
  rw [construct, Run.exec_bind, Run.exec_ofOption] at hw
  cases hrow : arrange? (.ofTypes ts) ts args with
  | none => simp [hrow] at hw
  | some row =>
    simp only [hrow] at hw
    have hlen := CanonicalCarrier.length_of_construct hw
    unfold arrange? at hrow
    split at hrow
    · obtain ⟨stored, -, hrow⟩ := Option.bind_eq_some_iff.mp hrow
      cases hrow
      rw [length_foldl_set, List.length_replicate] at hlen
      have := (Shape.ofTypes ts).componentCount.toNat_lt
      omega
    · cases hrow

/-- A carrier is never null. -/
theorem construct_ne_null {w : Value} (hw : ((construct own ts args).exec r st).1 = some w) : w ≠ .null := by
  rw [construct, Run.exec_bind, Run.exec_ofOption] at hw
  cases hrow : arrange? (.ofTypes ts) ts args with
  | none => simp [hrow] at hw
  | some row =>
    simp only [hrow] at hw
    exact CanonicalCarrier.construct_ne_null hw

end TypedCarrier

end PatternDispatch

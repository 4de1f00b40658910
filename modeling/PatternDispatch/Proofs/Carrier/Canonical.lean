-- The laws of carriers in canonical order: which arguments a constructor takes,
-- and that each place of what it gives reads back the argument at that place,
-- whether the parts are kept apart by region or in one row.
import PatternDispatch.Carrier.Canonical
import PatternDispatch.Proofs.Carrier.Coding
import PatternDispatch.Proofs.Carrier.Positions
import PatternDispatch.Proofs.Sequence

namespace PatternDispatch.CanonicalCarrier

/-! ## The pure model -/

/-- The constructor of carriers of a class of their own, or of carriers in one row. -/
def construct (s : Shape) : Option ClassId → List Value → Run Value
  | some c => constructPacked s c
  | none => constructListed s

/-- What stands at a canonical position of a carrier of either kind. -/
def readAt (own : Bool) (s : Shape) (p : UInt64) : Value → Option Value :=
  if own then readPacked (s.regionAt p) (p - s.offset (s.regionAt p)).toNat else readListed p.toNat

/-- Whether a constructor takes the arguments. In one row they may be anything. -/
def Admits (s : Shape) (own : Bool) (args : List Value) : Prop :=
  args.length = s.size ∧
    (own = true → ∀ (i : Nat) v, args[i]? = some v → (s.regionAt i.toUInt64).Holds v)

/-! ## Parts kept apart by region -/

theorem int?_eq_some {v : Value} {n : Int32} : v.int? = some n ↔ v = .int n := by
  cases v <;> simp [Value.int?]

theorem long?_eq_some {v : Value} {n : Int64} : long? v = some n ↔ v = .long n := by
  cases v <;> simp [long?]

variable {s : Shape} {args : List Value}

/-- The split takes apart what stands region after region. -/
theorem split?_eq_some_iff (h : s.Counts) {refs : List Value} {narrow : List Int32} {wide : List Int64} :
    split? s args = some (refs, narrow, wide) ↔
      args = refs ++ (narrow.map .int ++ wide.map .long) ∧ refs.length = s.refs.toNat ∧
        narrow.length = s.narrow.toNat ∧ wide.length = s.wide.toNat := by
  unfold split?
  rw [Shape.toNat_componentCount h, Shape.size]
  constructor
  · intro hs
    split at hs
    · rename_i hlen
      obtain ⟨ns, hns, hs⟩ := Option.bind_eq_some_iff.mp hs
      obtain ⟨ls, hls, hs⟩ := Option.bind_eq_some_iff.mp hs
      cases hs
      have hn := (option_mapM_eq_some_iff fun _ _ => int?_eq_some).mp hns
      have hl := (option_mapM_eq_some_iff fun _ _ => long?_eq_some).mp hls
      have hnlen := congrArg List.length hn
      have hllen := congrArg List.length hl
      simp only [List.length_take, List.length_drop, List.length_map] at hnlen hllen
      refine ⟨?_, ?_, by omega, by omega⟩
      · rw [← hn, ← hl, List.take_append_drop, List.take_append_drop]
      · rw [List.length_take]
        omega
    · cases hs
  · rintro ⟨rfl, hr, hn, hl⟩
    have htake : (refs ++ (narrow.map Value.int ++ wide.map Value.long)).take s.refs.toNat = refs := by
      rw [← hr, List.take_left]
    have hdrop : (refs ++ (narrow.map Value.int ++ wide.map Value.long)).drop s.refs.toNat =
        narrow.map .int ++ wide.map .long := by rw [← hr, List.drop_left]
    have hlen : (refs ++ (narrow.map Value.int ++ wide.map Value.long)).length =
        s.refs.toNat + s.narrow.toNat + s.wide.toNat := by
      simp only [List.length_append, List.length_map]
      omega
    have hnl : (narrow.map Value.int).length = s.narrow.toNat := by rw [List.length_map, hn]
    rw [if_pos hlen]
    simp only [htake, hdrop]
    rw [← hnl, List.take_left, List.drop_left, (option_mapM_eq_some_iff fun _ _ => int?_eq_some).mpr rfl,
      (option_mapM_eq_some_iff fun _ _ => long?_eq_some).mpr rfl]
    rfl

/-- What stands region after region is read back by region. -/
theorem readPacked_append {refs : List Value} {narrow : List Int32} {wide : List Int64} {c : ClassId}
    {id : Nat} (hr : refs.length = s.refs.toNat) (hn : narrow.length = s.narrow.toNat)
    {g : Region} {i : Nat} (hi : i < (s.count g).toNat) :
    readPacked g i (.packed c id refs narrow wide) =
      (refs ++ (narrow.map Value.int ++ wide.map Value.long))[s.start g + i]? := by
  cases g with
  | ref =>
    simp only [Shape.count] at hi
    rw [Shape.start, Nat.zero_add, List.getElem?_append_left (by omega)]
    rfl
  | narrow =>
    simp only [Shape.count] at hi
    rw [Shape.start, ← hr, List.getElem?_append_right (by omega), Nat.add_sub_cancel_left,
      List.getElem?_append_left (by rw [List.length_map]; omega), List.getElem?_map]
    rfl
  | wide =>
    simp only [Shape.count] at hi
    rw [Shape.start, ← hr, ← hn, Nat.add_assoc, List.getElem?_append_right (by omega),
      Nat.add_sub_cancel_left, List.getElem?_append_right (by rw [List.length_map]; omega),
      List.length_map, Nat.add_sub_cancel_left, List.getElem?_map]
    rfl

/-- Every place of a split row reads back the argument at that place. -/
theorem readAt_packed (h : s.Counts) {refs : List Value} {narrow : List Int32} {wide : List Int64}
    (hs : split? s args = some (refs, narrow, wide)) {p : UInt64} (hp : p.toNat < s.size) (c : ClassId)
    (id : Nat) : readAt true s p (.packed c id refs narrow wide) = args[p.toNat]? := by
  obtain ⟨rfl, hr, hn, -⟩ := (split?_eq_some_iff h).mp hs
  obtain ⟨hlo, hhi⟩ := Shape.mem_regionAt h hp
  have hoff := Shape.toNat_offset h (s.regionAt p)
  have hle : s.offset (s.regionAt p) ≤ p := by
    rw [UInt64.le_iff_toNat_le, hoff]
    exact hlo
  rw [readAt, if_pos rfl, UInt64.toNat_sub_of_le _ _ hle, hoff, readPacked_append hr hn (by omega)]
  congr 1
  omega

theorem holds_of_readPacked {g : Region} {i : Nat} {c : ClassId} {id : Nat} {refs : List Value}
    {narrow : List Int32} {wide : List Int64} {v : Value}
    (h : readPacked g i (.packed c id refs narrow wide) = some v) : g.Holds v := by
  cases g with
  | ref => trivial
  | narrow =>
    obtain ⟨n, -, rfl⟩ := Option.map_eq_some_iff.mp h
    exact ⟨n, rfl⟩
  | wide =>
    obtain ⟨n, -, rfl⟩ := Option.map_eq_some_iff.mp h
    exact ⟨n, rfl⟩

/-- All values of a stretch of the row that lies in one region are in stored form. -/
theorem holds_of_mem_stretch (h : s.Counts) (ha : Admits s true args) {g : Region} {v : Value}
    (hv : v ∈ (args.drop (s.start g)).take (s.count g).toNat) : g.Holds v := by
  obtain ⟨i, hi⟩ := List.mem_iff_getElem?.mp hv
  rw [List.getElem?_take] at hi
  split at hi
  · rename_i hlt
    rw [List.getElem?_drop] at hi
    have hsize : s.start g + i < 2 ^ 64 := by
      have := (List.getElem?_eq_some_iff.mp hi).1
      simp only [Shape.Counts] at h
      rw [ha.1, Shape.size] at this
      omega
    have hnat : ((s.start g + i).toUInt64).toNat = s.start g + i := UInt64.toNat_ofNat_of_lt' hsize
    have hregion : s.regionAt (s.start g + i).toUInt64 = g :=
      Shape.regionAt_of_mem h (by omega) (by omega)
    exact hregion ▸ ha.2 rfl _ _ hi
  · cases hi

/-- Arguments can be split when there are as many as places, each in stored form. -/
theorem split?_isSome_iff (h : s.Counts) : (split? s args).isSome ↔ Admits s true args := by
  constructor
  · intro hs
    obtain ⟨⟨refs, narrow, wide⟩, hs⟩ := Option.isSome_iff_exists.mp hs
    have hlen : args.length = s.size := by
      obtain ⟨rfl, hr, hn, hl⟩ := (split?_eq_some_iff h).mp hs
      simp only [List.length_append, List.length_map, Shape.size]
      omega
    refine ⟨hlen, ?_⟩
    intro _ i v hv
    have hi := (List.getElem?_eq_some_iff.mp hv).1
    have hnat : i.toUInt64.toNat = i := by
      simp only [Shape.Counts] at h
      rw [hlen, Shape.size] at hi
      exact UInt64.toNat_ofNat_of_lt' (by simp only [UInt64.size]; omega)
    have hread := readAt_packed h hs (p := i.toUInt64) (by omega) ⟨0⟩ 0
    rw [hnat, hv, readAt, if_pos rfl] at hread
    exact holds_of_readPacked hread
  · intro ha
    have hnarrow : ∀ v ∈ (args.drop s.refs.toNat).take s.narrow.toNat, (Value.int? v).isSome := by
      intro v hv
      obtain ⟨n, rfl⟩ := holds_of_mem_stretch (g := .narrow) h ha hv
      rfl
    have hwide : ∀ v ∈ (args.drop s.refs.toNat).drop s.narrow.toNat, (long? v).isSome := by
      intro v hv
      have hall : ((args.drop s.refs.toNat).drop s.narrow.toNat).length ≤ s.wide.toNat := by
        have := ha.1
        simp only [Shape.size, List.length_drop] at this ⊢
        omega
      rw [← List.take_of_length_le hall, List.drop_drop] at hv
      obtain ⟨n, rfl⟩ := holds_of_mem_stretch (g := .wide) h ha hv
      rfl
    obtain ⟨ns, hns⟩ := Option.isSome_iff_exists.mp (option_mapM_isSome.mpr hnarrow)
    obtain ⟨ls, hls⟩ := Option.isSome_iff_exists.mp (option_mapM_isSome.mpr hwide)
    unfold split?
    rw [Shape.toNat_componentCount h, if_pos ha.1]
    simp only [hns, hls]
    rfl

/-! ## Both kinds of carriers -/

variable {own : Option ClassId} {r : Registry} {st : RunState}

theorem exec_constructPacked (s : Shape) (c : ClassId) (args : List Value) :
    ((constructPacked s c args).exec r st).1 =
      (split? s args).map fun (refs, narrow, wide) => .packed c st.nextId refs narrow wide := by
  rw [constructPacked, Run.exec_bind, Run.exec_ofOption]
  cases split? s args <;> rfl

theorem exec_constructListed (h : s.Counts) :
    ((constructListed s args).exec r st).1 =
      if args.length = s.size then some (.listed st.nextId args) else none := by
  rw [constructListed, Shape.toNat_componentCount h]
  split <;> rfl

theorem construct_isSome_iff (h : s.Counts) :
    ((construct s own args).exec r st).1.isSome ↔ Admits s own.isSome args := by
  cases own with
  | some c => rw [construct, exec_constructPacked, Option.isSome_map, split?_isSome_iff h, Option.isSome_some]
  | none =>
    rw [construct, exec_constructListed h]
    split <;> simp_all [Admits]

/-- Every place of a new carrier reads back the argument at that place. -/
theorem readAt_construct (h : s.Counts) {w : Value} (hw : ((construct s own args).exec r st).1 = some w)
    {p : UInt64} (hp : p.toNat < s.size) : readAt own.isSome s p w = args[p.toNat]? := by
  cases own with
  | some c =>
    rw [construct, exec_constructPacked] at hw
    obtain ⟨⟨refs, narrow, wide⟩, hs, rfl⟩ := Option.map_eq_some_iff.mp hw
    exact readAt_packed h hs hp c st.nextId
  | none =>
    rw [construct, exec_constructListed h] at hw
    split at hw
    · cases hw
      rfl
    · cases hw

/-- What is taken are as many arguments as the carrier has parts. -/
theorem length_of_construct {w : Value} (hw : ((construct s own args).exec r st).1 = some w) :
    args.length = s.componentCount.toNat := by
  cases own with
  | some c =>
    rw [construct, exec_constructPacked] at hw
    obtain ⟨parts, hs, -⟩ := Option.map_eq_some_iff.mp hw
    unfold split? at hs
    split at hs
    · assumption
    · cases hs
  | none =>
    simp only [construct, constructListed] at hw
    split at hw
    · assumption
    · cases hw

/-- A carrier is never null. -/
theorem construct_ne_null {w : Value} (hw : ((construct s own args).exec r st).1 = some w) : w ≠ .null := by
  cases own with
  | some c =>
    rw [construct, exec_constructPacked] at hw
    obtain ⟨⟨refs, narrow, wide⟩, -, rfl⟩ := Option.map_eq_some_iff.mp hw
    exact Value.noConfusion
  | none =>
    simp only [construct, constructListed] at hw
    split at hw
    · cases hw
      exact Value.noConfusion
    · cases hw

end PatternDispatch.CanonicalCarrier

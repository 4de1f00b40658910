-- The laws of restartable switches on enumerations. From a later restart,
-- dispatch is the scan. From the start it reads the row of the declared
-- constants, and the row has no place for an ordinal past them.
import PatternDispatch.Proofs.Sequence
import PatternDispatch.Proofs.Switch.Index
import PatternDispatch.Switch.Restart

namespace PatternDispatch

/-- The ordinal of a constant is its place among the constants. -/
theorem ClassInfo.ordinal?_lt {constants : List String} {name : String} {o : UInt32}
    (h : ClassInfo.ordinal? constants name = some o) : o.toNat < constants.length := by
  unfold ClassInfo.ordinal? at h
  obtain ⟨i, hi, ho⟩ := Option.bind_eq_some_iff.mp h
  split at ho
  · rename_i hlt
    cases ho
    obtain ⟨hi, -⟩ := List.findIdx?_eq_some_iff_getElem.mp hi
    rwa [UInt32.toNat_ofNat_of_lt' hlt]
  · cases ho

theorem Value.ordinalIn?_eq_some {c : ClassId} {v : Value} {o : UInt32} :
    v.ordinalIn? c = some o ↔ v = .enum c o := by
  cases v with
  | enum d i =>
    simp only [ordinalIn?, Value.enum.injEq]
    split <;> simp_all
  | _ => simp [ordinalIn?]

theorem Registry.enumConstants_error {r : Registry} {c : ClassId} {e : BuildError}
    (h : r.enumConstants c = .error e) : ∃ reason, e = .invalidLabels reason := by
  unfold enumConstants at h
  simp only at h
  split at h
  · cases h
  · cases h
    exact ⟨_, rfl⟩

namespace EnumSwitch

variable {r : Registry} {c : ClassId} {labels : List Label} {t : EnumSwitch}

/-! ## What a switch is built from -/

/-- A switch for the labels over the declared constants. The class itself is the
only label that is taken as `any`, and a resolved name is a declared constant. -/
structure Built (c : ClassId) (constants : List String) (labels : List Label) (t : EnumSwitch) : Prop where
  cls_eq : t.cls = c
  count_lt : t.cases.length < 2 ^ 31
  any_iff : EnumCase.any ∈ t.cases ↔ Label.cls c ∈ labels
  ordinal_lt : ∀ o, EnumCase.constant o ∈ t.cases → o.toNat < constants.length
  first_eq : t.first = ((List.range constants.length).map (firstOf t.cases)).toArray

theorem caseOf_any_iff {constants : List String} {label : Label} {i : Nat} {k : EnumCase}
    (h : caseOf r c constants label i = .ok k) : k = .any ↔ label = .cls c := by
  unfold caseOf at h
  cases label with
  | text s => cases ho : ClassInfo.ordinal? constants s <;> simp_all <;> simp [← h]
  | cls d => by_cases hd : d = c <;> simp_all
  | number n => cases h

theorem caseOf_ordinal_lt {constants : List String} {label : Label} {i : Nat} {o : UInt32}
    (h : caseOf r c constants label i = .ok (.constant o)) : o.toNat < constants.length := by
  unfold caseOf at h
  cases label with
  | text s =>
    cases ho : ClassInfo.ordinal? constants s with
    | none => simp [ho] at h
    | some p =>
      simp only [ho, Except.ok.injEq, EnumCase.constant.injEq] at h
      exact ClassInfo.ordinal?_lt (h ▸ ho)
  | cls d => by_cases hd : d = c <;> simp_all
  | number n => cases h

/-- The cases of a switch are those of its labels, one for each. -/
theorem ofLabels_inv (h : ofLabels r c labels = .ok t) :
    ∃ constants, (r.info c).constants? = some constants ∧ labels.length < 2 ^ 31 ∧ t.cls = c ∧
      t.first = ((List.range constants.length).map (firstOf t.cases)).toArray ∧
      List.Forall₂ (fun (label, i) k => caseOf r c constants label i = .ok k) labels.zipIdx t.cases := by
  unfold ofLabels Registry.enumConstants at h
  obtain ⟨_, hcount, h⟩ := except_bind_ok h
  cases hc : (r.info c).constants? with
  | none => simp [hc, bind, Except.bind] at h
  | some constants =>
    simp only [hc] at h
    obtain ⟨_, hk, h⟩ := except_bind_ok h
    cases hk
    obtain ⟨cases, hcases, h⟩ := except_bind_ok h
    cases h
    exact ⟨constants, rfl, Switch.checkCount_ok hcount, rfl, rfl, except_mapM_ok hcases⟩

theorem built_of_ofLabels (h : ofLabels r c labels = .ok t) :
    ∃ constants, (r.info c).constants? = some constants ∧ Built c constants labels t := by
  obtain ⟨constants, hc, hcount, hcls, hfirst, all⟩ := ofLabels_inv h
  have len := all.length_eq
  rw [List.length_zipIdx] at len
  refine ⟨constants, hc, hcls, len ▸ hcount, ?_, ?_, hfirst⟩
  · constructor
    · intro hany
      obtain ⟨⟨label, i⟩, hmem, hcase⟩ := mem_of_forall₂_right all hany
      rw [← (caseOf_any_iff hcase).mp rfl]
      exact List.fst_mem_of_mem_zipIdx hmem
    · intro hlabel
      obtain ⟨i, hi⟩ := List.mem_iff_getElem?.mp hlabel
      have hmem : (Label.cls c, i) ∈ labels.zipIdx := List.mk_mem_zipIdx_iff_getElem?.mpr hi
      obtain ⟨k, hk, hcase⟩ := mem_of_forall₂_left all hmem
      rwa [(caseOf_any_iff hcase).mpr rfl] at hk
  · intro o ho
    obtain ⟨⟨label, i⟩, -, hcase⟩ := mem_of_forall₂_right all ho
    exact caseOf_ordinal_lt hcase

theorem caseOf_error {constants : List String} {label : Label} {i : Nat} {e : BuildError}
    (h : caseOf r c constants label i = .error e) : ∃ reason, e = .invalidLabels reason := by
  unfold caseOf at h
  cases label with
  | text s => cases ho : ClassInfo.ordinal? constants s <;> simp [ho] at h
  | cls d =>
    by_cases hd : d = c
    · simp [hd] at h
    · simp only [if_neg hd] at h
      cases h
      exact ⟨_, rfl⟩
  | number n =>
    cases h
    exact ⟨_, rfl⟩

theorem ofLabels_error {e : BuildError} (h : ofLabels r c labels = .error e) :
    ∃ reason, e = .invalidLabels reason := by
  unfold ofLabels at h
  rcases except_bind_error h with h | ⟨_, -, h⟩
  · exact Switch.checkCount_error h
  · rcases except_bind_error h with h | ⟨constants, -, h⟩
    · exact Registry.enumConstants_error h
    · rcases except_bind_error h with h | ⟨cases, -, h⟩
      · obtain ⟨⟨label, i⟩, -, h⟩ := except_mapM_error h
        exact caseOf_error h
      · cases h

/-! ## The row and the scan -/

/-- What the row holds for an ordinal: the first case that accepts it, for a
declared constant, and nothing past those. -/
theorem first_getElem? {constants : List String} (hb : Built c constants labels t) (o : UInt32) :
    t.first[o.toNat]? =
      if o.toNat < constants.length then
        some (Switch.indexOr t.cases.length (t.cases.findIdx? (·.accepts o)))
      else none := by
  rw [hb.first_eq, List.getElem?_toArray, List.getElem?_map]
  split
  · rename_i hlt
    rw [List.getElem?_range hlt, Option.map_some, firstOf, if_pos o.toNat_lt, Nat.toUInt32]
    rw [UInt32.ofNat_toNat]
  · rename_i hge
    rw [List.getElem?_eq_none (by simpa using Nat.le_of_not_lt hge), Option.map_none]

/-- An ordinal past the constants is accepted by the class alone. -/
theorem findIdx?_accepts_past {constants : List String} (hb : Built c constants labels t) {o : UInt32}
    (ho : constants.length ≤ o.toNat) :
    (t.cases.findIdx? (·.accepts o)).isSome ↔ Label.cls c ∈ labels := by
  rw [← hb.any_iff, List.findIdx?_isSome, List.any_eq_true]
  constructor
  · rintro ⟨k, hk, hacc⟩
    cases k with
    | any => exact hk
    | unresolved => cases hacc
    | constant p =>
      have := hb.ordinal_lt p hk
      rw [eq_of_beq hacc] at this
      omega
  · exact fun hany => ⟨.any, hany, rfl⟩

/-- From the start, the row and the scan differ on the ordinals past the
constants when the class is a label: the scan finds the class, and the row has
no place for them. -/
theorem dispatch_eq_scan_start {constants : List String} (hb : Built c constants labels t) (o : UInt32) :
    t.dispatch (.enum c o) 0 = t.scan (.enum c o) 0 ↔
      ¬ (Label.cls c ∈ labels ∧ constants.length ≤ o.toNat) := by
  have hord : (Value.enum c o).ordinalIn? t.cls = some o := by rw [hb.cls_eq]; simp [Value.ordinalIn?]
  simp only [dispatch, scan, Value.isNull, hord, Option.bind_some, ne_eq, not_true_eq_false,
    Bool.false_eq_true, or_self, if_false, Switch.firstFrom_zero, first_getElem? hb]
  split
  · rename_i hlt
    simp only [Option.getD_some, labelCount, true_iff]
    omega
  · rename_i hge
    rw [← findIdx?_accepts_past hb (Nat.le_of_not_lt hge)]
    simp only [Option.getD_none, miss, labelCount, Nat.le_of_not_lt hge, and_true]
    cases hf : t.cases.findIdx? (·.accepts o) with
    | none => simp [Switch.indexOr]
    | some i =>
      have hi := (List.findIdx?_eq_some_iff_getElem.mp hf).1
      have hcount := hb.count_lt
      simp only [Switch.indexOr, Option.isSome_some, not_true_eq_false, iff_false]
      intro heq
      have := Switch.caseIndex_inj hcount (by omega) heq
      omega

/-! ## The laws -/

/-- The dispatch of every switch that could be built is its scan, but for one case:
from the start, on an ordinal that the enumeration does not declare, with the
enumeration itself among the labels. -/
theorem the_row_answers_as_the_scan_but_past_the_constants (h : ofLabels r c labels = .ok t) :
    ∃ constants, (r.info c).constants? = some constants ∧
      ∀ (v : Value) (restart : Nat),
        t.dispatch v restart = t.scan v restart ↔
          ¬ (restart = 0 ∧ Label.cls c ∈ labels ∧
            ∃ o, v = .enum c o ∧ constants.length ≤ o.toNat) := by
  obtain ⟨constants, hc, hb⟩ := built_of_ofLabels h
  refine ⟨constants, hc, ?_⟩
  intro v restart
  by_cases hscan : restart ≠ 0 ∨ v.isNull = true
  · have hnot : ¬ (restart = 0 ∧ Label.cls c ∈ labels ∧
        ∃ o, v = .enum c o ∧ constants.length ≤ o.toNat) := by
      rintro ⟨h0, -, o, rfl, -⟩
      rcases hscan with hr | hv
      · exact hr h0
      · cases hv
    simp only [dispatch, if_pos hscan, hnot, not_false_eq_true]
  · obtain ⟨hr, hv⟩ := not_or.mp hscan
    obtain rfl : restart = 0 := not_not.mp hr
    rcases hord : v.ordinalIn? c with _ | o
    · have hnot : ∀ o, v ≠ .enum c o := by
        intro o ho
        rw [Value.ordinalIn?_eq_some.mpr ho] at hord
        cases hord
      simp [dispatch, scan, hb.cls_eq, hord, hv, hnot, Switch.indexOr, miss]
    · obtain rfl := Value.ordinalIn?_eq_some.mp hord
      rw [dispatch_eq_scan_start hb o]
      simp

/-- The registry in which `Color` is the enumeration of `RED`, its only constant. -/
def oneColor : Registry := (Registry.initial.define ((ClassDef.named "Color").asEnum ["RED"])).2

/-- The law on a switch with the name and the class, where both cases come up. -/
theorem the_row_of_one_color_answers_as_the_scan :
    ofLabels oneColor ⟨14⟩ [.text "RED", .cls ⟨14⟩] = .ok ⟨⟨14⟩, [.constant 0, .any], #[0]⟩ ∧
      ∃ constants, (oneColor.info ⟨14⟩).constants? = some constants ∧
        ∀ (v : Value) (restart : Nat),
          dispatch ⟨⟨14⟩, [.constant 0, .any], #[0]⟩ v restart =
              scan ⟨⟨14⟩, [.constant 0, .any], #[0]⟩ v restart ↔
            ¬ (restart = 0 ∧ Label.cls ⟨14⟩ ∈ [Label.text "RED", .cls ⟨14⟩] ∧
              ∃ o, v = .enum ⟨14⟩ o ∧ constants.length ≤ o.toNat) :=
  ⟨rfl, the_row_answers_as_the_scan_but_past_the_constants rfl⟩

/-- The second constant of an enumeration that has one: the scan finds the class
at position 0, and the dispatch answers the number of labels. -/
theorem the_row_misses_the_class_past_the_constants :
    ∃ t, ofLabels oneColor ⟨14⟩ [.cls ⟨14⟩] = .ok t ∧
      t.dispatch (.enum ⟨14⟩ 1) 0 = 1 ∧ t.scan (.enum ⟨14⟩ 1) 0 = 0 := by
  refine ⟨⟨⟨14⟩, [.any], #[0]⟩, rfl, ?_, ?_⟩
  · decide
  · decide

end EnumSwitch

end PatternDispatch

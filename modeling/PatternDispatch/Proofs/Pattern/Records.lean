-- The law of record patterns. The class of the target is looked at by the readers of
-- its fields, so a record without fields takes every target that is not null; with
-- fields, only objects of exactly that class match, and bind their fields in order.
import PatternDispatch.Proofs.Pattern.Refusals
import PatternDispatch.Proofs.Pattern.Soundness

namespace PatternDispatch.Pattern

variable {p : Pattern} {b : Bundle} {c : ClassId} {parts : List Component} {extractors : List Handle}
  {fields vs : List Value} {v : Value} {r : Registry} {s t : RunState} {st st' : Store}

/-! ## What the readers give -/

theorem fieldOf_eq_some_iff {i : Nat} {f : Value} :
    fieldOf c i v = some f ↔ ∃ fields, v = .object c fields ∧ fields[i]? = some f := by
  unfold fieldOf
  split
  · rename_i d fields
    by_cases hd : d = c
    · simp [hd]
    · simp [hd]
  · simp_all

theorem FieldReaders.count (h : FieldReaders c parts extractors) : extractors.length = parts.length := by
  have hlen := congrArg List.length h.sigs_eq
  rwa [List.length_map, List.length_map] at hlen

/-- The readers give the first fields of an object of the class. -/
theorem FieldReaders.exec_object (h : FieldReaders c parts extractors) (hcount : parts.length ≤ fields.length) :
    Run.exec (extractors.mapM fun e => e.invoke [.object c fields]) r s =
      (some (fields.take parts.length), s) := by
  apply Run.exec_mapM_of_forall₂
  apply forall₂_of_getElem?
  · rw [List.length_take, h.count, Nat.min_eq_left hcount]
  · intro i e f he hf s
    rw [List.getElem?_take, Option.ite_none_right_eq_some] at hf
    rw [h.reads i e he, Run.exec_ofOption, fieldOf_eq_some_iff.mpr ⟨fields, rfl, hf.2⟩]

/-- One reader is enough to tell the class, and there is one if there is a component. -/
theorem FieldReaders.eq_object (h : FieldReaders c parts extractors) (hparts : parts ≠ [])
    (hexec : Run.exec (extractors.mapM fun e => e.invoke [v]) r s = (some vs, t)) :
    ∃ fields, v = .object c fields ∧ vs = fields.take parts.length := by
  have hshown := Run.forall₂_of_exec_mapM hexec
  have hlen : vs.length = parts.length := by rw [← hshown.length_eq, h.count]
  have hread : ∀ (i : Nat) f, vs[i]? = some f → fieldOf c i v = some f := by
    intro i f hf
    obtain ⟨e, he, u, u', hrun⟩ := getElem?_of_forall₂_right hshown hf
    rw [h.reads i e he, Run.exec_ofOption] at hrun
    exact (Prod.mk.inj hrun).1
  have hfirst : 0 < vs.length := by rw [hlen]; exact List.length_pos_iff.mpr hparts
  obtain ⟨fields, rfl, -⟩ := fieldOf_eq_some_iff.mp (hread 0 _ (List.getElem?_eq_getElem hfirst))
  refine ⟨fields, rfl, ?_⟩
  apply List.ext_getElem?
  intro i
  cases hf : vs[i]? with
  | none =>
    have hi := List.getElem?_eq_none_iff.mp hf
    rw [List.getElem?_eq_none (by rw [List.length_take]; omega)]
  | some f =>
    obtain ⟨_, heq, hf'⟩ := fieldOf_eq_some_iff.mp (hread i f hf)
    cases heq
    have hi := (List.getElem?_eq_some_iff.mp hf).1
    rw [List.getElem?_take_of_lt (by omega), hf']

/-! ## What a record pattern takes -/

/-- What a record pattern is made of: it bundles what the readers give. -/
structure RecordOf (p : Pattern) (c : ClassId) (parts : List Component) (extractors : List Handle) (b : Bundle) :
    Prop where
  readers : FieldReaders c parts extractors
  descriptor_eq : p.descriptor = ⟨.ref c, parts.map (·.ty)⟩
  unbundles : p.Unbundles b
  attempt_null : p.tryMatch.invoke [.null] = pure .null
  attempt : ∀ v, v ≠ .null →
    p.tryMatch.invoke [v] = Run.orNull ((extractors.mapM fun e => e.invoke [v]) >>= b.construct)

theorem recordOf_of_ofRecord (hst : st.Reachable) (hparts : (st.registry.info c).components? = some parts)
    (hwords : parts.length < 2 ^ 64) (h : (ofRecord c).exec st = (.ok p, st')) :
    ∃ extractors b, RecordOf p c parts extractors b := by
  obtain ⟨parts', extractors, u, hparts', hreaders, hu, h⟩ := ofRecord_inv hst h
  cases hparts.symm.trans hparts'
  obtain ⟨b, _, hb, -⟩ := eagerOf_of_ofEagerProjection h
  rw [← hreaders.count] at hwords
  obtain ⟨hdescriptor, hunbundles, hnull, htry⟩ := ofEagerProjection_inv hu hwords hb h
  refine ⟨extractors, b, hreaders, by rw [hdescriptor, hreaders.rets_eq], hunbundles, hnull, ?_⟩
  intro v hv
  have hcarries := hunbundles.carries
  rw [hdescriptor] at hcarries
  rw [htry v hv, extract_eq hcarries]

theorem RecordOf.matches_iff (hp : RecordOf p c parts extractors b) :
    ((p.matchCarrier v).exec r s).1.isSome ↔
      v ≠ .null ∧ ∃ vs u, Run.exec (extractors.mapM fun e => e.invoke [v]) r s = (some vs, u) ∧
        Bundle.Checked r (parts.map (·.ty)) vs := by
  by_cases hv : v = .null
  · simp [hv, not_matches_null hp.attempt_null]
  · have hiff := hp.unbundles.matches_iff (hp.attempt v hv) (r := r) (s := s)
    rw [hp.descriptor_eq] at hiff
    rw [hiff, and_iff_right hv]

/-- With components, the class is told by their readers. -/
theorem RecordOf.matches_object_iff (hp : RecordOf p c parts extractors b) (hparts : parts ≠ []) :
    ((p.matchCarrier v).exec r s).1.isSome ↔
      ∃ fields, v = .object c fields ∧ Bundle.Checked r (parts.map (·.ty)) (fields.take parts.length) := by
  rw [hp.matches_iff]
  refine ⟨?_, ?_⟩
  · rintro ⟨-, vs, u, hcollect, hchecked⟩
    obtain ⟨fields, hobject, rfl⟩ := hp.readers.eq_object hparts hcollect
    exact ⟨fields, hobject, hchecked⟩
  · rintro ⟨fields, rfl, hchecked⟩
    have hcount : parts.length ≤ fields.length := by
      have hlen := hchecked.length_eq
      rw [List.length_take, List.length_map] at hlen
      omega
    exact ⟨Value.noConfusion, _, _, hp.readers.exec_object hcount, hchecked⟩

/-- Without components there is no reader, and nothing looks at the class. -/
theorem RecordOf.matches_iff_of_nil (hp : RecordOf p c [] extractors b) :
    ((p.matchCarrier v).exec r s).1.isSome ↔ v ≠ .null := by
  have hnone : extractors = [] := List.length_eq_zero_iff.mp hp.readers.count
  rw [hp.matches_iff, hnone, and_iff_left_iff_imp]
  intro _
  refine ⟨[], s, rfl, rfl, ?_⟩
  intro i t v ht
  cases ht

theorem RecordOf.match_of_accepted (hp : RecordOf p c parts extractors b)
    (hfields : Bundle.Accepted r (parts.map (·.ty)) fields) (hmarks : ∀ f ∈ fields, f ≠ .nullMark) :
    ((p.matchBindings (.object c fields)).exec r s).1 = some fields ∧
      ((p.isMatch (.object c fields)).exec r s).1 = some true := by
  have hcount : fields.length = parts.length := by rw [hfields.length_eq, List.length_map]
  have hcollect := hp.readers.exec_object (r := r) (s := s) hcount.ge
  rw [← hcount, List.take_length] at hcollect
  exact hp.unbundles.match_of_accepted (hp.attempt _ Value.noConfusion) hcollect (by rwa [hp.descriptor_eq]) hmarks

/-! ## The law -/

/-- A record pattern takes the objects of exactly its class whose first fields pass the
check of its types, unless there are no components: then it takes all targets that are
not null. Of an object of the class with one accepted field for each component it binds
the fields in order. It cannot be built just when several fields have no bundle. -/
theorem a_record_is_known_by_its_class_unless_it_is_empty (hst : st.Reachable)
    (hparts : (st.registry.info c).components? = some parts) (hwords : parts.length < 2 ^ 64) :
    (∀ e, (ofRecord c).Fails st e ↔ Unbundled st (parts.map (·.ty)) e) ∧
    ∀ p st', (ofRecord c).exec st = (.ok p, st') →
      p.descriptor = ⟨.ref c, parts.map (·.ty)⟩ ∧
      (parts ≠ [] → ∀ r s v, ((p.matchCarrier v).exec r s).1.isSome ↔
        ∃ fields, v = .object c fields ∧ Bundle.Checked r (parts.map (·.ty)) (fields.take parts.length)) ∧
      (parts = [] → ∀ r s v, ((p.matchCarrier v).exec r s).1.isSome ↔ v ≠ .null) ∧
      ∀ r s fields, Bundle.Accepted r (parts.map (·.ty)) fields → (∀ f ∈ fields, f ≠ .nullMark) →
        ((p.matchBindings (.object c fields)).exec r s).1 = some fields ∧
          ((p.isMatch (.object c fields)).exec r s).1 = some true := by
  refine ⟨fun e => ofRecord_of_some hst.sound hparts, ?_⟩
  intro p st' h
  obtain ⟨extractors, b, hp⟩ := recordOf_of_ofRecord hst hparts hwords h
  refine ⟨hp.descriptor_eq, ?_, ?_, ?_⟩
  · intro hne r s v
    exact hp.matches_object_iff hne
  · rintro rfl r s v
    exact hp.matches_iff_of_nil
  · intro r s fields haccepted hmarks
    exact hp.match_of_accepted haccepted hmarks

/-- The law on the class of records with one component. -/
theorem a_box_is_known_by_its_class :
    ∃ p st', (ofRecord ⟨14⟩).exec boxStore = (.ok p, st') ∧
      (∀ v, ((p.matchCarrier v).exec boxStore.registry .initial).1.isSome ↔
        ∃ fields, v = .object ⟨14⟩ fields ∧ Bundle.Checked boxStore.registry [.object] (fields.take 1)) ∧
      ((p.matchBindings (.object ⟨14⟩ [.int 7])).exec boxStore.registry .initial).1 = some [.int 7] := by
  obtain ⟨p, st', hp⟩ : ∃ p st', (ofRecord ⟨14⟩).exec boxStore = (.ok p, st') := ⟨_, _, rfl⟩
  have hparts : (boxStore.registry.info ⟨14⟩).components? = some [⟨"value", .object⟩] := rfl
  obtain ⟨-, law⟩ := a_record_is_known_by_its_class_unless_it_is_empty reachable_boxStore hparts (by decide)
  obtain ⟨-, hmatches, -, hbinds⟩ := law p st' hp
  have haccepted : Bundle.Accepted boxStore.registry [.object] [.int 7] := by
    refine ⟨rfl, ?_⟩
    intro i t v ht hv
    cases i with
    | zero =>
      cases ht
      cases hv
      rfl
    | succ i => cases ht
  refine ⟨p, st', hp, hmatches (List.cons_ne_nil _ _) _ _, ?_⟩
  exact (hbinds _ _ _ haccepted (by simp [Value.nullMark])).1

/-- A class of records without components, and a plain class below it. -/
def unitStore : Store :=
  let st := ((Build.define ((ClassDef.named "Unit").asRecord [])).exec (.initial [])).2
  ((Build.define ((ClassDef.named "Sub").extending ⟨14⟩)).exec st).2

theorem reachable_unitStore : unitStore.Reachable := by
  apply Store.Reachable.leads _ (Store.Step.defines _ _).leads
  exact (Store.reachable_initial []).leads (Store.Step.defines _ _).leads

/-- The pattern of the class without components matches a string, and an object of the
class below. -/
theorem an_empty_record_pattern_takes_a_string :
    unitStore.Reachable ∧ (unitStore.registry.info ⟨14⟩).components? = some [] ∧
      ∃ p st', (ofRecord ⟨14⟩).exec unitStore = (.ok p, st') ∧
        ((p.matchCarrier (.str "x")).exec unitStore.registry .initial).1 = some (.bool true) ∧
        ((p.matchCarrier (.object ⟨15⟩ [])).exec unitStore.registry .initial).1 = some (.bool true) :=
  ⟨reachable_unitStore, rfl, _, _, rfl, rfl, rfl⟩

end PatternDispatch.Pattern

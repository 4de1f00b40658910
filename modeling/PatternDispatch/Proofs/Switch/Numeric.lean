-- The laws of switches on numbers. A table is built for labels of one kind with
-- distinct keys, and only for those; its sorted look-up answers as the scan; and
-- among values of one scalar kind the keys tell apart what is not equal.
import Mathlib.Data.List.Nodup
import PatternDispatch.Proofs.Sequence
import PatternDispatch.Proofs.Switch.Search
import PatternDispatch.Switch.Numeric

namespace PatternDispatch

/-! ## Keys -/

namespace NumericKind

variable {kind : NumericKind} {v label : Value} {k : Int}

theorem key?_null (kind : NumericKind) : kind.key? .null = none := by cases kind <;> rfl

/-- Values of one scalar kind have the same key just when they are equal. -/
theorem key?_eq_iff_equals (hk : kind.key? label = some k) (h : v.scalar? = label.scalar?) :
    kind.key? v = some k ↔ label.equals v := by
  have hsingle : ∀ a b : UInt32, a.toInt32 = b.toInt32 ↔ a = b :=
    fun a b => ⟨fun h => by simpa using congrArg Int32.toUInt32 h, congrArg _⟩
  have hdouble : ∀ a b : UInt64, a.toInt64 = b.toInt64 ↔ a = b :=
    fun a b => ⟨fun h => by simpa using congrArg Int64.toUInt64 h, congrArg _⟩
  have hunit : ∀ a b : UInt16, (a.toNat : Int) = b.toNat ↔ a = b :=
    fun a b => by rw [Int.natCast_inj, UInt16.toNat_inj]
  -- Only pairs of one scalar kind are left, each under the switches that have a key for it.
  cases label <;> cases v <;> simp [Value.scalar?] at h <;> cases kind <;>
    simp [key?, Value.integral?] at hk ⊢ <;> subst hk <;> rw [eq_comm]
  case bool.bool.int b c => cases b <;> cases c <;> decide
  all_goals simp [Value.equals, Int8.toInt_inj, Int16.toInt_inj, Int32.toInt_inj, Int64.toInt_inj,
    hunit, hsingle, hdouble]

end NumericKind

namespace NumericTable

variable {r : Registry} {kind : NumericKind} {labels : List Value} {t : NumericTable} {v label : Value}
  {key : Int} {i : Nat}

/-! ## What a table is built from -/

/-- Labels that a table can be built for: no more than there are indices, none null,
all of the kind, and no two with one key. -/
structure Legal (kind : NumericKind) (labels : List Value) : Prop where
  count_lt : labels.length < 2 ^ 31
  keyed : ∀ label ∈ labels, label ≠ .null ∧ (kind.key? label).isSome
  distinct : (labels.map kind.key?).Nodup

/-- A table for the labels: their keys in case order, and arranged by size with the
case indices. -/
structure Built (kind : NumericKind) (labels : List Value) (t : NumericTable) : Prop where
  kind_eq : t.kind = kind
  keys_eq : labels.map kind.key? = t.cases.map some
  count_lt : t.cases.length < 2 ^ 31
  nodup : t.cases.Nodup
  arranged : ∃ order, Switch.Arranged id t.cases order ∧ t.sorted = (order.map (·.1)).toArray ∧
    t.places = (order.map fun e => Switch.caseIndex e.2).toArray

theorem keyOf_ok_iff : keyOf r kind label i = .ok key ↔ kind.key? label = some key := by
  unfold keyOf
  cases label with
  | null => simp [Value.isNull, kind.key?_null]
  | _ =>
    simp only [Value.isNull, Bool.false_eq_true, if_false]
    split <;> simp_all

theorem keyOf_error {e : BuildError} (h : keyOf r kind label i = .error e) :
    ∃ reason, e = .invalidLabels reason := by
  unfold keyOf at h
  split at h
  · cases h
    exact ⟨_, rfl⟩
  · split at h
    · cases h
    · cases h
      exact ⟨_, rfl⟩

/-- No two neighbours have one key. -/
theorem firstRepeat?_eq_none_iff (order : List (Int × Nat)) :
    firstRepeat? order = none ↔ (order.map (·.1)).IsChain (· ≠ ·) := by
  fun_induction firstRepeat? order with
  | case1 a b rest heq => simp [heq]
  | case2 a b rest hne ih => simp [hne, ih]
  | case3 order hshort =>
    rcases order with _ | ⟨a, _ | ⟨b, rest⟩⟩
    · simp
    · simp
    · exact absurd rfl (hshort a b rest)

theorem firstRepeat?_ordered_eq_none_iff (keys : List Int) :
    firstRepeat? (ordered keys) = none ↔ keys.Nodup := by
  have harranged : Switch.Arranged id keys (ordered keys) := Switch.arranged_mergeSort id keys
  have hascending : ((ordered keys).map (·.1)).Pairwise (· ≤ ·) := harranged.ascending
  rw [firstRepeat?_eq_none_iff, ← Switch.nodup_iff_isChain hascending]
  exact harranged.map_fst_perm.nodup_iff

theorem keys_of_mapM {keys : List Int}
    (h : (labels.zipIdx.mapM fun (label, i) => keyOf r kind label i) = .ok keys) :
    labels.map kind.key? = keys.map some := by
  have all := (except_mapM_ok h).imp fun _ _ hkey => keyOf_ok_iff.mp hkey
  have hlabels := congrArg (List.map kind.key?) (List.zipIdx_map_fst 0 labels)
  rw [List.map_map] at hlabels
  exact hlabels.symm.trans (map_eq_of_forall₂ all)

theorem legal_of_keys {keys : List Int} (hkeys : labels.map kind.key? = keys.map some)
    (hcount : labels.length < 2 ^ 31) (hnodup : keys.Nodup) : Legal kind labels := by
  refine ⟨hcount, ?_, ?_⟩
  · intro label hlabel
    have hmem : kind.key? label ∈ keys.map some := hkeys ▸ List.mem_map_of_mem hlabel
    obtain ⟨key, -, hkey⟩ := List.mem_map.mp hmem
    refine ⟨?_, by rw [← hkey]; rfl⟩
    rintro rfl
    rw [kind.key?_null] at hkey
    cases hkey
  · rw [hkeys]
    exact hnodup.map fun _ _ => Option.some.inj

theorem built_of_ofLabels (h : ofLabels r kind labels = .ok t) : Legal kind labels ∧ t.Built kind labels := by
  unfold ofLabels at h
  obtain ⟨⟨⟩, hcheck, h⟩ := except_bind_ok h
  obtain ⟨keys, hkeys, h⟩ := except_bind_ok h
  have hcount := Switch.checkCount_ok hcheck
  have hkeys := keys_of_mapM hkeys
  have hlen : labels.length = keys.length := by simpa using congrArg List.length hkeys
  simp only at h
  split at h
  · cases h
  · rename_i hrepeat
    cases h
    have hnodup := (firstRepeat?_ordered_eq_none_iff keys).mp hrepeat
    exact ⟨legal_of_keys hkeys hcount hnodup, rfl, hkeys, hlen ▸ hcount, hnodup, _,
      Switch.arranged_mergeSort id keys, rfl, rfl⟩

theorem ofLabels_ok (r : Registry) (h : Legal kind labels) : ∃ t, ofLabels r kind labels = .ok t := by
  have hsteps : ∀ x ∈ labels.zipIdx, ∃ key, (fun (label, i) => keyOf r kind label i) x = .ok key := by
    rintro ⟨label, i⟩ hmem
    obtain ⟨key, hkey⟩ := Option.isSome_iff_exists.mp (h.keyed label (List.fst_mem_of_mem_zipIdx hmem)).2
    exact ⟨key, keyOf_ok_iff.mpr hkey⟩
  obtain ⟨keys, hmap⟩ := except_mapM_exists hsteps
  have hdistinct := h.distinct
  rw [keys_of_mapM hmap] at hdistinct
  have hrepeat := (firstRepeat?_ordered_eq_none_iff keys).mpr (List.Nodup.of_map _ hdistinct)
  refine ⟨⟨kind, keys, ((ordered keys).map (·.1)).toArray,
    ((ordered keys).map fun e => Switch.caseIndex e.2).toArray⟩, ?_⟩
  unfold ofLabels
  rw [Switch.checkCount_of_lt h.count_lt]
  simp only [bind, Except.bind, hmap, hrepeat]
  rfl

theorem ofLabels_error {e : BuildError} (h : ofLabels r kind labels = .error e) :
    ∃ reason, e = .invalidLabels reason := by
  unfold ofLabels at h
  rcases except_bind_error h with h | ⟨_, -, h⟩
  · exact Switch.checkCount_error h
  · rcases except_bind_error h with h | ⟨keys, -, h⟩
    · obtain ⟨⟨label, i⟩, -, h⟩ := except_mapM_error h
      exact keyOf_error h
    · simp only at h
      split at h
      · cases h
        exact ⟨_, rfl⟩
      · cases h

/-! ## The two look-ups -/

/-- Next to a sorted key stands the place of its label. -/
theorem Built.place (hb : t.Built kind labels) (h : t.sorted[i]? = some key) :
    ∃ p, t.cases[p]? = some key ∧ t.places[i]? = some (Switch.caseIndex p) := by
  obtain ⟨order, harranged, hsorted, hplaces⟩ := hb.arranged
  rw [hsorted, List.getElem?_toArray, List.getElem?_map, Option.map_eq_some_iff] at h
  obtain ⟨⟨k, p⟩, hentry, hk⟩ := h
  refine ⟨p, ?_, by simp [hplaces, hentry]⟩
  exact harranged.mem_iff.mp (hk ▸ List.mem_of_getElem? hentry)

theorem Built.mem_sorted (hb : t.Built kind labels) : key ∈ t.sorted ↔ key ∈ t.cases := by
  obtain ⟨order, harranged, hsorted, -⟩ := hb.arranged
  rw [hsorted, List.mem_toArray, harranged.map_fst_perm.mem_iff]

/-- Any report on a key leads to its first case. -/
theorem Built.answer_eq (hb : t.Built kind labels) {found : Option Nat} (h : Switch.Reports t.sorted key found) :
    (found.bind (t.places[·]?)).getD t.miss = Switch.indexOr t.labelCount (t.cases.idxOf? key) := by
  cases h with
  | hit hi =>
    obtain ⟨p, hp, hplace⟩ := hb.place hi
    rw [Switch.idxOf?_of_nodup hb.nodup hp, Option.bind_some, hplace]
    rfl
  | miss hkey =>
    rw [hb.mem_sorted] at hkey
    rw [List.idxOf?_eq_none_iff.mpr hkey]
    rfl

theorem Built.dispatch_eq_scan (hb : t.Built kind labels) (v : Value) : t.dispatch v = t.scan v := by
  unfold dispatch scan
  split
  · rfl
  · cases t.kind.key? v with
    | none => rfl
    | some key =>
      obtain ⟨order, harranged, hsorted, -⟩ := hb.arranged
      have hascending : t.sorted.toList.Pairwise (· ≤ ·) := by
        rw [hsorted]
        exact harranged.ascending
      exact hb.answer_eq (Switch.search_reports hascending key)

theorem Built.answersByKey (hb : t.Built kind labels) (v : Value) :
    Switch.AnswersByKey kind.key? labels v (t.scan v).toInt := by
  unfold scan
  rw [hb.kind_eq]
  exact Switch.answersByKey_scan hb.keys_eq hb.count_lt v

/-! ## The law -/

/-- Switches on numbers can be built for just the legal labels, and other labels are
refused as such. Look-up and scan give one answer: -1 for null, the position of the
label with the key of the target, and the number of labels if there is none. For a
target of the scalar kind of a label, that is the label's position just when the two
are equal. -/
theorem a_number_finds_the_label_with_its_key (r : Registry) (kind : NumericKind) (labels : List Value) :
    ((∃ t, ofLabels r kind labels = .ok t) ↔ Legal kind labels) ∧
      (∀ e, ofLabels r kind labels = .error e → ∃ reason, e = .invalidLabels reason) ∧
      ∀ t, ofLabels r kind labels = .ok t → ∀ v, t.dispatch v = t.scan v ∧
        Switch.AnswersByKey kind.key? labels v (t.dispatch v).toInt ∧
        ∀ (i : Nat) label, labels[i]? = some label → v.scalar? = label.scalar? →
          ((t.dispatch v).toInt = i ↔ label.equals v) := by
  refine ⟨⟨?_, ofLabels_ok r⟩, fun e => ofLabels_error, ?_⟩
  · rintro ⟨t, h⟩
    exact (built_of_ofLabels h).1
  · intro t h v
    obtain ⟨hlegal, hb⟩ := built_of_ofLabels h
    have hanswer := hb.answersByKey v
    rw [← hb.dispatch_eq_scan] at hanswer
    refine ⟨hb.dispatch_eq_scan v, hanswer, ?_⟩
    intro i label hi hscalar
    obtain ⟨key, hkey⟩ := Option.isSome_iff_exists.mp (hlegal.keyed label (List.mem_of_getElem? hi)).2
    rw [hanswer.eq_iff kind.key?_null hlegal.distinct hi hkey]
    exact NumericKind.key?_eq_iff_equals hkey hscalar

/-- The law on the two zeros and a number that is none, which are three cases. -/
theorem the_two_zeros_are_two_cases :
    ∃ t, ofLabels .initial .double [.double 0, .double 0x8000000000000000, .double 0x7ff8000000000001] = .ok t ∧
      (t.dispatch (.double 0x8000000000000000)).toInt = 1 ∧
      (t.dispatch (.double 0x7ff8000000000001)).toInt = 2 ∧
      (t.dispatch (.double 0x7ff8000000000002)).toInt ≠ 2 ∧ t.dispatch (.float 0) = t.scan (.float 0) := by
  obtain ⟨hbuilds, -, hlaw⟩ := a_number_finds_the_label_with_its_key .initial .double
    [.double 0, .double 0x8000000000000000, .double 0x7ff8000000000001]
  obtain ⟨t, ht⟩ := hbuilds.mpr ⟨by decide, by simp [NumericKind.key?], by decide⟩
  have hanswers := hlaw t ht
  refine ⟨t, ht, ?_, ?_, ?_, (hanswers (.float 0)).1⟩
  · exact ((hanswers _).2.2 1 _ rfl rfl).mpr (by decide)
  · exact ((hanswers _).2.2 2 _ rfl rfl).mpr (by decide)
  · intro hfound
    have hequal := ((hanswers (.double 0x7ff8000000000002)).2.2 2 (.double 0x7ff8000000000001) rfl rfl).mp hfound
    exact absurd hequal (by decide)

end NumericTable

end PatternDispatch

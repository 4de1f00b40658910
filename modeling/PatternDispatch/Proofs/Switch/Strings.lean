-- The laws of switches on strings. A table is built for distinct strings, and only for
-- those; whatever the hasher, and whichever label of one hash a search reports, the
-- look-up answers as the scan.
import PatternDispatch.Proofs.Switch.Names
import PatternDispatch.Proofs.Switch.Search
import PatternDispatch.Switch.Strings

namespace PatternDispatch.StringTable

variable {r : Registry} {hasher : String → Int32} {labels : List Value} {t : StringTable} {s : String}
  {hash : Int} {i hit : Nat}

/-! ## Runs of one hash -/

/-- As long as all pass, none is left behind. -/
theorem lt_length_takeWhile {α : Type} {p : α → Bool} {xs : List α} {n : Nat}
    (h : ∀ j ≤ n, ∃ x, xs[j]? = some x ∧ p x) : n < (xs.takeWhile p).length := by
  induction xs generalizing n with
  | nil =>
    obtain ⟨x, hx, -⟩ := h 0 (Nat.zero_le n)
    cases hx
  | cons a xs ih =>
    obtain ⟨x, hx, hpass⟩ := h 0 (Nat.zero_le n)
    cases hx
    rw [List.takeWhile_cons_of_pos hpass, List.length_cons]
    cases n with
    | zero => exact Nat.succ_pos _
    | succ n =>
      apply Nat.succ_lt_succ
      apply ih
      intro j hj
      exact h (j + 1) (Nat.succ_le_succ hj)

/-- The run around a hit has all positions of its hash. -/
theorem mem_run (hhashes : t.hashes.toList.Pairwise (· ≤ ·)) (hhit : t.hashes[hit]? = some hash)
    (hi : t.hashes[i]? = some hash) : t.runStart hash hit ≤ i ∧ i < t.runStop hash hit := by
  have hlt := (Array.getElem?_eq_some_iff.mp hhit).1
  unfold runStart runStop
  rcases Nat.lt_or_ge i hit with hbefore | hafter
  · refine ⟨?_, by omega⟩
    have hrun : hit - 1 - i < ((t.hashes.toList.take hit).reverse.takeWhile (· = hash)).length := by
      apply lt_length_takeWhile
      intro j hj
      refine ⟨hash, ?_, by simp⟩
      have hlen : (t.hashes.toList.take hit).length = hit := by
        rw [List.length_take, Array.length_toList]
        omega
      rw [List.getElem?_reverse (by omega), hlen, List.getElem?_take_of_lt (by omega), Array.getElem?_toList]
      exact Switch.getElem?_between hhashes hi hhit (by omega) (by omega)
    omega
  · refine ⟨by omega, ?_⟩
    have hrun : i - hit < ((t.hashes.toList.drop hit).takeWhile (· = hash)).length := by
      apply lt_length_takeWhile
      intro j hj
      refine ⟨hash, ?_, by simp⟩
      rw [List.getElem?_drop, Array.getElem?_toList]
      exact Switch.getElem?_between hhashes hhit hi (by omega) (by omega)
    omega

/-- No two neighbours have one hash. -/
theorem hasRepeat_eq_false_iff (hashes : List Int) : hasRepeat hashes = false ↔ hashes.IsChain (· ≠ ·) := by
  fun_induction hasRepeat hashes with
  | case1 a b rest ih => simp [ih]
  | case2 hashes hshort =>
    rcases hashes with _ | ⟨a, _ | ⟨b, rest⟩⟩
    · simp
    · simp
    · exact absurd rfl (hshort a b rest)

/-! ## What a table is built from -/

/-- A table for the labels: the strings in case order, and arranged by hash with their
case indices. -/
structure Built (hasher : String → Int32) (labels : List Value) (t : StringTable) : Prop where
  hasher_eq : t.hasher = hasher
  labels_eq : labels = t.cases.map .str
  count_lt : t.cases.length < 2 ^ 31
  nodup : t.cases.Nodup
  arranged : ∃ order, Switch.Arranged Prod.fst (t.cases.map fun s => ((hasher s).toInt, s)) order ∧
    t.hashes = (order.map (·.1.1)).toArray ∧ t.labels = (order.map (·.1.2)).toArray ∧
    t.places = (order.map fun e => Switch.caseIndex e.2).toArray
  distinct : t.collisions = false → t.hashes.toList.Nodup

theorem built_of_ofLabels (h : ofLabels r hasher labels = .ok t) :
    Switch.AllNames labels ∧ t.Built hasher labels := by
  unfold ofLabels at h
  obtain ⟨⟨⟩, hcheck, h⟩ := except_bind_ok h
  obtain ⟨ns, hnames, h⟩ := except_bind_ok h
  cases h
  have hcount := Switch.checkCount_ok hcheck
  have harranged : Switch.Arranged Prod.fst (ns.map fun s => ((hasher s).toInt, s)) (ordered hasher ns) :=
    Switch.arranged_mergeSort Prod.fst _
  obtain ⟨hlabels, hnodup, -⟩ := Switch.names_ok_iff.mp hnames
  refine ⟨Switch.allNames_of_names hnames hcount, rfl, hlabels, ?_, hnodup, ⟨_, harranged, rfl, rfl, rfl⟩, ?_⟩
  · simpa [hlabels] using hcount
  · intro hcollisions
    exact (Switch.nodup_iff_isChain harranged.ascending).mpr ((hasRepeat_eq_false_iff _).mp hcollisions)

theorem ofLabels_ok (r : Registry) (hasher : String → Int32) (h : Switch.AllNames labels) :
    ∃ t, ofLabels r hasher labels = .ok t := by
  obtain ⟨ns, hnames⟩ := h.names_ok r "a string"
  unfold ofLabels
  rw [Switch.checkCount_of_lt h.count_lt]
  simp only [bind, Except.bind, hnames]
  exact ⟨_, rfl⟩

theorem ofLabels_error {e : BuildError} (h : ofLabels r hasher labels = .error e) :
    ∃ reason, e = .invalidLabels reason := by
  unfold ofLabels at h
  rcases except_bind_error h with h | ⟨_, -, h⟩
  · exact Switch.checkCount_error h
  · rcases except_bind_error h with h | ⟨ns, -, h⟩
    · exact Switch.names_error h
    · cases h

/-! ## The two look-ups -/

theorem Built.ascending (hb : t.Built hasher labels) : t.hashes.toList.Pairwise (· ≤ ·) := by
  obtain ⟨order, harranged, hhashes, -⟩ := hb.arranged
  rw [hhashes]
  exact harranged.ascending

/-- Every label stands somewhere among the sorted ones. -/
theorem Built.stands (hb : t.Built hasher labels) (hs : s ∈ t.cases) : ∃ i : Nat, t.labels[i]? = some s := by
  obtain ⟨order, harranged, -, hlabels, -⟩ := hb.arranged
  have hmem : ((hasher s).toInt, s) ∈ order.map (·.1) :=
    harranged.map_fst_perm.mem_iff.mpr (List.mem_map.mpr ⟨s, hs, rfl⟩)
  obtain ⟨e, he, hfst⟩ := List.mem_map.mp hmem
  obtain ⟨i, hi⟩ := List.mem_iff_getElem?.mp he
  exact ⟨i, by simp [hlabels, hi, hfst]⟩

/-- Next to a sorted label stand its hash and the answer of a scan for it. -/
theorem Built.beside (hb : t.Built hasher labels) (h : t.labels[i]? = some s) :
    t.hashes[i]? = some (hasher s).toInt ∧
      t.places[i]? = some (Switch.indexOr t.labelCount (t.cases.idxOf? s)) := by
  obtain ⟨order, harranged, hhashes, hlabels, hplaces⟩ := hb.arranged
  rw [hlabels, List.getElem?_toArray, List.getElem?_map, Option.map_eq_some_iff] at h
  obtain ⟨⟨⟨k, s'⟩, p⟩, hentry, rfl⟩ := h
  have hcase := harranged.mem_iff.mp (List.mem_of_getElem? hentry)
  rw [List.getElem?_map, Option.map_eq_some_iff] at hcase
  obtain ⟨s'', hp, heq⟩ := hcase
  cases heq
  rw [Switch.idxOf?_of_nodup hb.nodup hp]
  exact ⟨by simp [hhashes, hentry], by simp [hplaces, hentry, Switch.indexOr]⟩

theorem miss_eq (hs : s ∉ t.cases) : t.miss = Switch.indexOr t.labelCount (t.cases.idxOf? s) := by
  rw [List.idxOf?_eq_none_iff.mpr hs]
  rfl

/-- With distinct hashes a string can only stand at the hit. -/
theorem Built.eq_hit (hb : t.Built hasher labels) (hcollisions : t.collisions = false)
    (hhit : t.hashes[hit]? = some (hasher s).toInt) (hi : t.labels[i]? = some s) : i = hit := by
  have hlt := (Array.getElem?_eq_some_iff.mp (hb.beside hi).1).1
  have hsame : t.hashes.toList[i]? = t.hashes.toList[hit]? := by
    rw [Array.getElem?_toList, Array.getElem?_toList, hhit, (hb.beside hi).1]
  exact (List.getElem?_inj (by simpa using hlt) (hb.distinct hcollisions)).mp hsame

/-- A probe from any hit on its hash leads to the string, wherever it stands. -/
theorem Built.probe_eq (hb : t.Built hasher labels) (hhit : t.hashes[hit]? = some (hasher s).toInt) :
    (t.probe s (hasher s).toInt hit).getD t.miss = Switch.indexOr t.labelCount (t.cases.idxOf? s) := by
  unfold probe
  by_cases hat : t.labels[hit]? = some s
  · rw [if_pos hat, (hb.beside hat).2, Option.getD_some]
  · rw [if_neg hat]
    cases hcollisions : t.collisions with
    | true =>
      rw [if_pos rfl]
      cases hfind : (List.range' (t.runStart (hasher s).toInt hit)
          (t.runStop (hasher s).toInt hit - t.runStart (hasher s).toInt hit)).find? (t.labels[·]? = some s) with
      | some i =>
        have hi : t.labels[i]? = some s := by simpa using List.find?_some hfind
        simp only [hfind, Option.bind_some, (hb.beside hi).2, Option.getD_some]
      | none =>
        simp only [hfind, Option.bind_none, Option.getD_none]
        apply miss_eq
        intro hs
        obtain ⟨i, hi⟩ := hb.stands hs
        obtain ⟨hstart, hstop⟩ := mem_run hb.ascending hhit (hb.beside hi).1
        have hno := List.find?_eq_none.mp hfind i (List.mem_range'_1.mpr ⟨hstart, by omega⟩)
        exact hno (by simpa using hi)
    | false =>
      apply miss_eq
      intro hs
      obtain ⟨i, hi⟩ := hb.stands hs
      rw [hb.eq_hit hcollisions hhit hi] at hi
      exact hat hi

/-- The answer for a string, by what a search for its hash reported. -/
def answerFrom (t : StringTable) (s : String) (found : Option Nat) : Int32 :=
  (found.bind (t.probe s (t.hasher s).toInt)).getD t.miss

theorem dispatch_str (t : StringTable) (s : String) :
    t.dispatch (.str s) = t.answerFrom s (Switch.search t.hashes (t.hasher s).toInt) := rfl

/-- Any report on the hash will do. -/
theorem Built.answerFrom_eq_scan (hb : t.Built hasher labels) {found : Option Nat}
    (h : Switch.Reports t.hashes (t.hasher s).toInt found) : t.answerFrom s found = t.scan (.str s) := by
  unfold answerFrom
  rw [hb.hasher_eq] at h ⊢
  cases h with
  | hit hhit => exact hb.probe_eq hhit
  | miss hhash =>
    apply miss_eq
    intro hs
    obtain ⟨i, hi⟩ := hb.stands hs
    exact hhash (Array.mem_of_getElem? (hb.beside hi).1)

theorem Built.dispatch_eq_scan (hb : t.Built hasher labels) (v : Value) : t.dispatch v = t.scan v := by
  cases v with
  | str s =>
    rw [dispatch_str]
    exact hb.answerFrom_eq_scan (Switch.search_reports hb.ascending _)
  | _ => rfl

theorem Built.answersByKey (hb : t.Built hasher labels) (v : Value) :
    Switch.AnswersByKey Value.text? labels v (t.scan v).toInt := by
  have hkeys : labels.map Value.text? = t.cases.map some := by
    rw [hb.labels_eq, List.map_map]
    rfl
  exact Switch.answersByKey_scan hkeys hb.count_lt v

/-! ## The law -/

/-- With any hasher, switches on strings can be built for just the labels that are
distinct strings, and other labels are refused as such. Look-up and scan give one answer:
-1 for null, the position of the label that is the target, and the number of labels if
none is. It makes no difference which position of a hash a search reports. -/
theorem a_string_is_found_under_any_hash (r : Registry) (hasher : String → Int32) (labels : List Value) :
    ((∃ t, ofLabels r hasher labels = .ok t) ↔ Switch.AllNames labels) ∧
      (∀ e, ofLabels r hasher labels = .error e → ∃ reason, e = .invalidLabels reason) ∧
      ∀ t, ofLabels r hasher labels = .ok t →
        (∀ v, t.dispatch v = t.scan v ∧ Switch.AnswersByKey Value.text? labels v (t.dispatch v).toInt) ∧
        ∀ s found, Switch.Reports t.hashes (t.hasher s).toInt found →
          t.answerFrom s found = t.scan (.str s) := by
  refine ⟨⟨?_, ofLabels_ok r hasher⟩, fun e => ofLabels_error, ?_⟩
  · rintro ⟨t, h⟩
    exact (built_of_ofLabels h).1
  · intro t h
    obtain ⟨-, hb⟩ := built_of_ofLabels h
    refine ⟨fun v => ⟨hb.dispatch_eq_scan v, ?_⟩, fun s found => hb.answerFrom_eq_scan⟩
    rw [hb.dispatch_eq_scan]
    exact hb.answersByKey v

/-- The law on three strings of one hash: the last is found, from whichever of them. -/
theorem a_string_is_found_among_equal_hashes :
    ∃ t, ofLabels .initial (fun _ => 0) [.str "a", .str "b", .str "c"] = .ok t ∧
      (t.dispatch (.str "c")).toInt = 2 ∧
      ∀ found, Switch.Reports t.hashes (t.hasher "c").toInt found → (t.answerFrom "c" found).toInt = 2 := by
  obtain ⟨hbuilds, -, hlaw⟩ :=
    a_string_is_found_under_any_hash .initial (fun _ => 0) [.str "a", .str "b", .str "c"]
  obtain ⟨t, ht⟩ := hbuilds.mpr ⟨by decide, by simp, by simp⟩
  obtain ⟨hanswers, hany⟩ := hlaw t ht
  obtain ⟨hscan, hanswer⟩ := hanswers (.str "c")
  have hindex := (hanswer.eq_iff rfl (by decide) (i := 2) rfl rfl).mpr rfl
  refine ⟨t, ht, hindex, ?_⟩
  intro found hfound
  rw [hany "c" found hfound, ← hscan]
  exact hindex

end PatternDispatch.StringTable

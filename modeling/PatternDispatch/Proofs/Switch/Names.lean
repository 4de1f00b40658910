-- The laws of labels that are names: they are read just when all are strings and no
-- two are equal.
import Mathlib.Data.List.Nodup
import Mathlib.Data.Set.List
import PatternDispatch.Proofs.Sequence
import PatternDispatch.Proofs.Switch.Index
import PatternDispatch.Switch.Names

namespace PatternDispatch.Switch

variable {r : Registry} {noun : String} {labels : List Value} {ns : List String}

/-- Labels that a switch on names can have: no more than there are indices, all of them
strings, and no two equal. -/
structure AllNames (labels : List Value) : Prop where
  count_lt : labels.length < 2 ^ 31
  strings : ∀ label ∈ labels, ∃ s, label = .str s
  distinct : labels.Nodup

/-- What is read are the labels, each a string unlike those before it. -/
theorem names_ok_iff {seen : List String} {i : Nat} :
    names r noun seen i labels = .ok ns ↔ labels = ns.map .str ∧ ns.Nodup ∧ ∀ s ∈ ns, s ∉ seen := by
  fun_induction names r noun seen i labels generalizing ns with
  | case1 => cases ns <;> simp
  | case2 => cases ns <;> simp
  | case3 seen i s rest hseen =>
    refine iff_of_false (by simp) ?_
    rintro ⟨hlabels, -, hnew⟩
    rcases ns with _ | ⟨s', ns⟩
    · cases hlabels
    · cases hlabels
      exact hnew s List.mem_cons_self hseen
  | case4 seen i s rest hseen ih =>
    rw [except_map_ok_iff]
    refine ⟨?_, ?_⟩
    · rintro ⟨ms, hms, rfl⟩
      obtain ⟨rfl, hnodup, hnew⟩ := ih.mp hms
      refine ⟨rfl, List.nodup_cons.mpr ⟨fun hs => hnew s hs List.mem_cons_self, hnodup⟩, ?_⟩
      rintro s' (_ | ⟨_, hs'⟩)
      · exact hseen
      · exact fun hmem => hnew s' hs' (List.mem_cons_of_mem s hmem)
    · rintro ⟨hlabels, hnodup, hnew⟩
      rcases ns with _ | ⟨s', ns⟩
      · cases hlabels
      · cases hlabels
        refine ⟨ns, ih.mpr ⟨rfl, (List.nodup_cons.mp hnodup).2, ?_⟩, rfl⟩
        intro s' hs' hmem
        rcases List.mem_cons.mp hmem with rfl | hmem
        · exact (List.nodup_cons.mp hnodup).1 hs'
        · exact hnew s' (List.mem_cons_of_mem s hs') hmem
  | case5 seen i label rest hnull hstr =>
    refine iff_of_false (by simp) ?_
    rintro ⟨hlabels, -⟩
    rcases ns with _ | ⟨s, ns⟩
    · cases hlabels
    · cases hlabels
      exact hstr s rfl

theorem names_error {seen : List String} {i : Nat} {e : BuildError} (h : names r noun seen i labels = .error e) :
    ∃ reason, e = .invalidLabels reason := by
  fun_induction names r noun seen i labels with
  | case1 => cases h
  | case2 =>
    cases h
    exact ⟨_, rfl⟩
  | case3 =>
    cases h
    exact ⟨_, rfl⟩
  | case4 seen i s rest hseen ih =>
    cases hrest : names r noun (s :: seen) (i + 1) rest with
    | ok ms =>
      rw [hrest] at h
      cases h
    | error e' =>
      rw [hrest] at h
      cases h
      exact ih hrest
  | case5 =>
    cases h
    exact ⟨_, rfl⟩

/-- Such labels are the names of a list without doubles. -/
theorem allNames_iff :
    AllNames labels ↔ labels.length < 2 ^ 31 ∧ ∃ ns : List String, labels = ns.map .str ∧ ns.Nodup := by
  refine ⟨?_, ?_⟩
  · intro h
    have hrange : labels ∈ Set.range (List.map Value.str) := by
      rw [Set.range_list_map]
      intro label hlabel
      obtain ⟨s, rfl⟩ := h.strings label hlabel
      exact ⟨s, rfl⟩
    obtain ⟨ns, rfl⟩ := hrange
    exact ⟨h.count_lt, ns, rfl, List.Nodup.of_map _ h.distinct⟩
  · rintro ⟨hcount, ns, rfl, hnodup⟩
    refine ⟨hcount, ?_, hnodup.map fun _ _ => Value.str.inj⟩
    intro label hlabel
    obtain ⟨s, -, rfl⟩ := List.mem_map.mp hlabel
    exact ⟨s, rfl⟩

theorem AllNames.names_ok (h : AllNames labels) (r : Registry) (noun : String) :
    ∃ ns, names r noun [] 0 labels = .ok ns := by
  obtain ⟨-, ns, rfl, hnodup⟩ := allNames_iff.mp h
  exact ⟨ns, names_ok_iff.mpr ⟨rfl, hnodup, by simp⟩⟩

theorem allNames_of_names (h : names r noun [] 0 labels = .ok ns) (hcount : labels.length < 2 ^ 31) :
    AllNames labels := by
  obtain ⟨hlabels, hnodup, -⟩ := names_ok_iff.mp h
  exact allNames_iff.mpr ⟨hcount, ns, hlabels, hnodup⟩

end PatternDispatch.Switch

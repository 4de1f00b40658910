-- The laws of class names. A registry of not too many classes gives for each
-- name the one class of that name, and a definition changes what is known of no
-- other name.
import PatternDispatch.Proofs.Hierarchy

namespace PatternDispatch.Registry

variable {r : Registry} {i : ClassInfo} {d : ClassDef} {name : String} {c : ClassId}

/-- A name leads to a class just when it is the name of that class. -/
def Named (r : Registry) : Prop :=
  ∀ name c, r.lookup? name = some c ↔ ∃ i, r.info? c = some i ∧ i.name = name

theorem lookup?_issue (r : Registry) (i : ClassInfo) (name : String) :
    (r.issue i).lookup? name = if i.name = name then some (.ofIndex r.size) else r.lookup? name := by
  unfold lookup? issue
  simp only [Std.TreeMap.getElem?_insert, Std.LawfulEqCmp.compare_eq_iff_eq]

theorem info?_issue (hsize : r.size < 2 ^ 32) (i : ClassInfo) (c : ClassId) :
    (r.issue i).info? c = if c = .ofIndex r.size then some i else r.info? c := by
  have hindex : (ClassId.ofIndex r.size).index = r.size := ClassId.index_ofIndex hsize
  unfold info? issue
  rw [Array.getElem?_push]
  by_cases hc : c = .ofIndex r.size
  · subst hc
    rw [if_pos rfl, if_pos (show _ = r.classes.size from hindex)]
  · rw [if_neg hc, if_neg]
    intro heq
    exact hc (ClassId.index_inj (heq.trans hindex.symm))

theorem named_empty : empty.Named := by
  intro name c
  simp [lookup?, info?, empty]

/-- A class of a new name gets the name. -/
theorem Named.issue (h : r.Named) (hsize : r.size < 2 ^ 32) (hnew : r.lookup? i.name = none) :
    (r.issue i).Named := by
  intro name c
  have hfree : r.info? (.ofIndex r.size) = none := by
    unfold info?
    rw [ClassId.index_ofIndex hsize]
    exact Array.getElem?_eq_none (Nat.le_refl _)
  rw [lookup?_issue, info?_issue hsize]
  by_cases hname : i.name = name
  · subst hname
    rw [if_pos rfl]
    by_cases hc : c = .ofIndex r.size
    · subst hc
      simp
    · -- The old classes of that name would have been found.
      rw [if_neg hc, ← h, hnew]
      simp [Ne.symm hc]
  · rw [if_neg hname, h name c]
    by_cases hc : c = .ofIndex r.size
    · subst hc
      rw [if_pos rfl, hfree]
      simp [hname]
    · rw [if_neg hc]

theorem size_issue (r : Registry) (i : ClassInfo) : (r.issue i).size = r.size + 1 := Array.size_push _

theorem size_le_define (r : Registry) (d : ClassDef) : r.size ≤ (r.define d).2.size := by
  rcases define_cases r d with h | h
  · rw [h]
  · rw [h, size_issue]
    omega

theorem size_define_le (r : Registry) (d : ClassDef) : (r.define d).2.size ≤ r.size + 1 := by
  rcases define_cases r d with h | h
  · rw [h]
    omega
  · rw [h, size_issue]

theorem Named.foldl_issue {is : List ClassInfo} (h : r.Named) (hsize : r.size + is.length ≤ 2 ^ 32)
    (hnew : ∀ i ∈ is, r.lookup? i.name = none) (hnodup : (is.map ClassInfo.name).Nodup) :
    (is.foldl Registry.issue r).Named := by
  induction is generalizing r with
  | nil => exact h
  | cons i is ih =>
    rw [List.map_cons, List.nodup_cons] at hnodup
    rw [List.length_cons] at hsize
    apply ih (h.issue (by omega) (hnew i List.mem_cons_self)) (by rw [size_issue]; omega) _ hnodup.2
    intro j hj
    have hne : i.name ≠ j.name := by
      intro heq
      exact hnodup.1 (heq ▸ List.mem_map_of_mem hj)
    rw [lookup?_issue, if_neg hne]
    exact hnew j (List.mem_cons_of_mem _ hj)

theorem named_initial : initial.Named := by
  apply named_empty.foldl_issue (by decide) _ (by decide)
  intro i _
  simp [lookup?, empty]

theorem define_of_lookup_none (h : r.lookup? d.name = none) :
    r.define d = (.ofIndex r.size, r.issue d.info) := by
  unfold define
  rw [h]

theorem define_of_lookup_some (h : r.lookup? d.name = some c) : r.define d = (c, r) := by
  unfold define
  rw [h]

theorem Named.define (h : r.Named) (hsize : (r.define d).2.size ≤ 2 ^ 32) : (r.define d).2.Named := by
  cases hlookup : r.lookup? d.name with
  | some c =>
    rw [define_of_lookup_some hlookup]
    exact h
  | none =>
    rw [define_of_lookup_none hlookup] at hsize ⊢
    rw [size_issue] at hsize
    exact h.issue (by omega) hlookup

/-- A definition leads from its name to the class that it gives. -/
theorem lookup?_define (r : Registry) (d : ClassDef) : (r.define d).2.lookup? d.name = some (r.define d).1 := by
  cases hlookup : r.lookup? d.name with
  | some c => rw [define_of_lookup_some hlookup, hlookup]
  | none =>
    rw [define_of_lookup_none hlookup, lookup?_issue]
    exact if_pos rfl

/-- A name that led to a class still does. -/
theorem lookup?_define_of_some (h : r.lookup? name = some c) : (r.define d).2.lookup? name = some c := by
  cases hlookup : r.lookup? d.name with
  | some c' => rwa [define_of_lookup_some hlookup]
  | none =>
    rw [define_of_lookup_none hlookup, lookup?_issue, if_neg]
    · exact h
    · intro heq
      rw [← heq] at h
      cases hlookup.symm.trans h

end PatternDispatch.Registry

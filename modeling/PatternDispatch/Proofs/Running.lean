-- The laws of running: steps one after another, a step for each entry of a list,
-- and null for a run without a match.
import Mathlib.Data.List.Forall2
import PatternDispatch.Run

namespace PatternDispatch.Run

variable {α β : Type} {x : Run α} {f : α → Run β} {r : Registry} {s t : RunState}

theorem eq_of_exec {y : Run α} (h : ∀ r s, x.exec r s = y.exec r s) : x = y :=
  funext fun r => funext fun s => h r s

theorem exec_bind_some {b : β} (h : (x >>= f).exec r s = (some b, t)) :
    ∃ a u, x.exec r s = (some a, u) ∧ (f a).exec r u = (some b, t) := by
  rw [exec_bind] at h
  rcases hx : x.exec r s with ⟨_ | a, u⟩
  · rw [hx] at h
    cases h
  · rw [hx] at h
    exact ⟨a, u, rfl, h⟩

theorem exec_bind_of_some {a : α} (h : x.exec r s = (some a, t)) : (x >>= f).exec r s = (f a).exec r t := by
  rw [exec_bind, h]

theorem exec_bind_of_none (h : x.exec r s = (none, t)) : (x >>= f).exec r s = (none, t) := by
  rw [exec_bind, h]

/-- A last step that runs nothing changes what is given, if anything is. -/
theorem exec_bind_pure {a : Option α} (g : α → β) (h : x.exec r s = (a, t)) :
    (x >>= fun a => pure (g a)).exec r s = (a.map g, t) := by
  cases a with
  | none => exact exec_bind_of_none h
  | some a => exact exec_bind_of_some h

theorem ofOption_bind (a : Option α) (g : α → Option β) :
    (ofOption a >>= fun x => ofOption (g x)) = ofOption (a.bind g) := by
  cases a <;> rfl

theorem exec_orNull (x : Run Value) (r : Registry) (s : RunState) :
    (orNull x).exec r s = (some ((x.exec r s).1.getD .null), (x.exec r s).2) := rfl

/-- Only a run that matches gives something else than null. -/
theorem exec_of_orNull {x : Run Value} {w : Value} (h : (orNull x).exec r s = (some w, t)) (hne : w ≠ .null) :
    x.exec r s = (some w, t) := by
  rw [exec_orNull] at h
  rcases hx : x.exec r s with ⟨_ | w', u⟩
  · rw [hx] at h
    cases h
    exact absurd rfl hne
  · rw [hx] at h
    cases h
    rfl

/-- A run that is not null has passed the test before it. -/
theorem exec_of_tested {test : Registry → Bool} {x : Run Value} {w : Value}
    (h : (do if test (← registry) then x else return .null).exec r s = (some w, t)) (hne : w ≠ .null) :
    test r ∧ x.exec r s = (some w, t) := by
  rw [exec_bind_of_some (exec_registry r s)] at h
  split at h
  · exact ⟨‹_›, h⟩
  · cases h
    exact absurd rfl hne

/-! ## A step for each entry -/

/-- Each result came out of the step for its entry. -/
theorem forall₂_of_exec_mapM {xs : List α} {ys : List β} (h : (xs.mapM f).exec r s = (some ys, t)) :
    List.Forall₂ (fun x y => ∃ u u', (f x).exec r u = (some y, u')) xs ys := by
  induction xs generalizing ys s with
  | nil =>
    cases h
    exact .nil
  | cons x xs ih =>
    rw [List.mapM_cons] at h
    obtain ⟨y, u, hx, h⟩ := exec_bind_some h
    obtain ⟨ys', u', hrest, h⟩ := exec_bind_some h
    cases h
    exact .cons ⟨s, u, hx⟩ (ih hrest)

theorem exec_mapM_some {xs : List α} {ys : List β} (h : (xs.mapM f).exec r s = (some ys, t)) :
    ys.length = xs.length := (forall₂_of_exec_mapM h).length_eq.symm

/-- Steps whose results do not go by where they start. -/
theorem exec_mapM_fst {g : α → Option β} {xs : List α} (h : ∀ x ∈ xs, ∀ s, ((f x).exec r s).1 = g x) :
    ((xs.mapM f).exec r s).1 = xs.mapM g := by
  induction xs generalizing s with
  | nil => rfl
  | cons x xs ih =>
    have hrest := fun s => ih (s := s) fun x' hx' => h x' (List.mem_cons_of_mem _ hx')
    rw [List.mapM_cons, List.mapM_cons, ← h x List.mem_cons_self s]
    rcases hx : (f x).exec r s with ⟨_ | y, t⟩
    · rw [exec_bind_of_none hx]
      rfl
    · rw [exec_bind_of_some hx]
      simp only [← hrest t]
      rcases hxs : (xs.mapM f).exec r t with ⟨_ | ys, u⟩
      · rw [exec_bind_of_none hxs]
        rfl
      · rw [exec_bind_of_some hxs]
        rfl

/-- Steps that match wherever they start. -/
theorem exec_mapM_ok {xs : List α} (h : ∀ x ∈ xs, ∀ s, ∃ y, ((f x).exec r s).1 = some y) :
    ∃ ys t, (xs.mapM f).exec r s = (some ys, t) := by
  induction xs generalizing s with
  | nil => exact ⟨[], s, rfl⟩
  | cons x xs ih =>
    obtain ⟨y, hy⟩ := h x List.mem_cons_self s
    obtain ⟨ys, t, hys⟩ := ih (s := ((f x).exec r s).2) fun x' hx' => h x' (List.mem_cons_of_mem _ hx')
    refine ⟨y :: ys, t, ?_⟩
    rw [List.mapM_cons, exec_bind_of_some (Prod.ext hy rfl), exec_bind_of_some hys, exec_pure]

/-- Steps that leave the run as it is. -/
theorem exec_mapM_of_forall₂ {xs : List α} {ys : List β}
    (h : List.Forall₂ (fun x y => ∀ s, (f x).exec r s = (some y, s)) xs ys) :
    (xs.mapM f).exec r s = (some ys, s) := by
  induction h with
  | nil => rfl
  | cons hx _ ih => rw [List.mapM_cons, exec_bind_of_some (hx s), exec_bind_of_some ih, exec_pure]

end PatternDispatch.Run

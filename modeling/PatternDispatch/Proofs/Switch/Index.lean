-- The laws of case indices: which position is the first one from a restart on, and
-- how positions become indices.
import Mathlib.Algebra.Order.Ring.Nat
import Mathlib.Data.List.Find
import PatternDispatch.Switch.Index

namespace PatternDispatch.Switch

variable {α : Type} {p : α → Bool} {xs : List α} {restart i j n : Nat}

/-! ## The first position that passes -/

theorem find?_zipIdx (p : α → Bool) (xs : List α) (n : Nat) :
    ((xs.zipIdx n).find? (p ·.1)).map (·.2) = (xs.findIdx? p).map (· + n) := by
  induction xs generalizing n with
  | nil => rfl
  | cons x xs ih =>
    rw [List.zipIdx_cons, List.find?_cons, List.findIdx?_cons]
    cases hx : p x with
    | true => simp
    | false =>
      simp only [ih, Bool.false_eq_true, if_false, Option.map_map]
      congr 1
      funext i
      simp only [Function.comp_apply]
      omega

theorem drop_zipIdx (xs : List α) (n : Nat) : xs.zipIdx.drop n = (xs.drop n).zipIdx n := by
  apply List.ext_getElem?
  intro i
  simp [List.getElem?_zipIdx]

theorem firstFrom_eq (p : α → Bool) (xs : List α) (restart : Nat) :
    firstFrom p xs restart = ((xs.drop restart).findIdx? p).map (· + restart) := by
  rw [firstFrom, drop_zipIdx, find?_zipIdx]

theorem firstFrom_zero (p : α → Bool) (xs : List α) : firstFrom p xs 0 = xs.findIdx? p := by
  simp [firstFrom_eq]

/-- No position from the restart on passes. -/
theorem not_of_firstFrom_none (h : firstFrom p xs restart = none) {x : α} (hj : restart ≤ j)
    (hx : xs[j]? = some x) : p x = false := by
  rw [firstFrom_eq, Option.map_eq_none_iff, List.findIdx?_eq_none_iff] at h
  apply h x
  apply List.mem_iff_getElem?.mpr
  exact ⟨j - restart, by rwa [List.getElem?_drop, Nat.add_sub_cancel' hj]⟩

/-- The position passes, and none before it from the restart on does. -/
theorem of_firstFrom_some (h : firstFrom p xs restart = some i) :
    restart ≤ i ∧ (∃ x, xs[i]? = some x ∧ p x) ∧
      ∀ (j : Nat) x, restart ≤ j → j < i → xs[j]? = some x → p x = false := by
  rw [firstFrom_eq, Option.map_eq_some_iff] at h
  obtain ⟨k, hk, rfl⟩ := h
  obtain ⟨hlt, hpass, hbefore⟩ := List.findIdx?_eq_some_iff_getElem.mp hk
  rw [List.length_drop] at hlt
  rw [List.getElem_drop] at hpass
  refine ⟨Nat.le_add_left _ _, ⟨_, ?_, hpass⟩, ?_⟩
  · rw [Nat.add_comm, List.getElem?_eq_getElem]
  · intro j x hj hjk hx
    have hnot := hbefore (j - restart) (by omega)
    simp only [List.getElem_drop, Nat.add_sub_cancel' hj] at hnot
    obtain ⟨_, rfl⟩ := List.getElem?_eq_some_iff.mp hx
    simpa using hnot

/-- Only which entries pass counts. -/
theorem firstFrom_of_map_eq {β : Type} {q : β → Bool} {ys : List β} (h : xs.map p = ys.map q) (restart : Nat) :
    firstFrom p xs restart = firstFrom q ys restart := by
  have hmap : ∀ {γ : Type} (f : γ → Bool) (zs : List γ),
      (zs.drop restart).findIdx? f = ((zs.map f).drop restart).findIdx? id := by
    intro γ f zs
    rw [← List.map_drop, List.findIdx?_map]
    rfl
  rw [firstFrom_eq, firstFrom_eq, hmap p xs, hmap q ys, h]

theorem firstFrom_congr {q : α → Bool} (h : ∀ x ∈ xs, p x = q x) :
    firstFrom p xs restart = firstFrom q xs restart :=
  firstFrom_of_map_eq (List.map_congr_left h) restart

/-- Past the last position all restarts are one. -/
theorem firstFrom_min (p : α → Bool) (xs : List α) (restart : Nat) :
    firstFrom p xs (min restart xs.length) = firstFrom p xs restart := by
  rcases Nat.le_total restart xs.length with h | h
  · rw [Nat.min_eq_left h]
  · rw [Nat.min_eq_right h]
    simp [firstFrom_eq, List.drop_eq_nil_of_le h]

/-! ## Indices -/

theorem caseIndex_inj (hi : i < 2 ^ 31) (hj : j < 2 ^ 31) (h : caseIndex i = caseIndex j) : i = j := by
  have h := congrArg Int32.toInt h
  rw [toInt_caseIndex hi, toInt_caseIndex hj] at h
  omega

theorem checkCount_ok (h : checkCount n = .ok ()) : n < 2 ^ 31 := by
  unfold checkCount at h
  split at h
  · assumption
  · cases h

theorem checkCount_of_lt (h : n < 2 ^ 31) : checkCount n = .ok () := if_pos h

theorem checkCount_error {e : BuildError} (h : checkCount n = .error e) :
    ∃ reason, e = .invalidLabels reason := by
  unfold checkCount at h
  split at h
  · cases h
  · cases h
    exact ⟨_, rfl⟩

end PatternDispatch.Switch

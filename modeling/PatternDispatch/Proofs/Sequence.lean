-- Lists of steps that can fail. A list that went through gave one result for
-- each step, in order.
import Mathlib.Data.List.Forall2

namespace PatternDispatch

variable {ε α β : Type}

/-! ## Steps that can fail with an error -/

theorem except_bind_ok {x : Except ε α} {f : α → Except ε β} {b : β} (h : (x >>= f) = .ok b) :
    ∃ a, x = .ok a ∧ f a = .ok b := by
  cases x with
  | error e => cases h
  | ok a => exact ⟨a, rfl, h⟩

theorem except_mapM_ok {f : α → Except ε β} {xs : List α} {ys : List β} (h : xs.mapM f = .ok ys) :
    List.Forall₂ (fun x y => f x = .ok y) xs ys := by
  induction xs generalizing ys with
  | nil =>
    cases h
    exact .nil
  | cons x xs ih =>
    rw [List.mapM_cons] at h
    obtain ⟨y, hy, h⟩ := except_bind_ok h
    obtain ⟨ys, hys, h⟩ := except_bind_ok h
    cases h
    exact .cons hy (ih hys)

theorem except_bind_error {x : Except ε α} {f : α → Except ε β} {e : ε} (h : (x >>= f) = .error e) :
    x = .error e ∨ ∃ a, x = .ok a ∧ f a = .error e := by
  cases x with
  | error e' =>
    cases h
    exact Or.inl rfl
  | ok a => exact Or.inr ⟨a, rfl, h⟩

theorem except_map_ok_iff {x : Except ε α} {f : α → β} {b : β} :
    x.map f = .ok b ↔ ∃ a, x = .ok a ∧ b = f a := by
  cases x <;> simp [Except.map, eq_comm]

theorem except_mapM_error {f : α → Except ε β} {xs : List α} {e : ε} (h : xs.mapM f = .error e) :
    ∃ x ∈ xs, f x = .error e := by
  induction xs with
  | nil => cases h
  | cons x xs ih =>
    rw [List.mapM_cons] at h
    rcases except_bind_error h with hx | ⟨y, -, h⟩
    · exact ⟨x, List.mem_cons_self, hx⟩
    · rcases except_bind_error h with h | ⟨ys, -, h⟩
      · obtain ⟨x', hx', h⟩ := ih h
        exact ⟨x', List.mem_cons_of_mem _ hx', h⟩
      · cases h

/-- A list of steps fails only if one of them does. -/
theorem except_mapM_exists {f : α → Except ε β} {xs : List α} (h : ∀ x ∈ xs, ∃ y, f x = .ok y) :
    ∃ ys, xs.mapM f = .ok ys := by
  cases hmap : xs.mapM f with
  | ok ys => exact ⟨ys, rfl⟩
  | error e =>
    obtain ⟨x, hx, hfail⟩ := except_mapM_error hmap
    obtain ⟨y, hy⟩ := h x hx
    rw [hy] at hfail
    cases hfail

/-! ## Steps that can give nothing -/

theorem option_mapM_some {f : α → Option β} {xs : List α} {ys : List β} (h : xs.mapM f = some ys) :
    List.Forall₂ (fun x y => f x = some y) xs ys := by
  induction xs generalizing ys with
  | nil =>
    cases h
    exact .nil
  | cons x xs ih =>
    rw [List.mapM_cons] at h
    obtain ⟨y, hy, h⟩ := Option.bind_eq_some_iff.mp h
    obtain ⟨ys, hys, h⟩ := Option.bind_eq_some_iff.mp h
    cases h
    exact .cons hy (ih hys)

theorem option_mapM_isSome {f : α → Option β} {xs : List α} :
    (xs.mapM f).isSome ↔ ∀ x ∈ xs, (f x).isSome := by
  induction xs with
  | nil => simp
  | cons x xs ih =>
    rw [List.mapM_cons, List.forall_mem_cons, ← ih]
    cases f x with
    | none => simp
    | some y => cases xs.mapM f <;> simp

/-- Steps that take off what `g` puts on. -/
theorem option_mapM_eq_some_iff {f : α → Option β} {g : β → α} (hf : ∀ a b, f a = some b ↔ a = g b)
    {xs : List α} {ys : List β} : xs.mapM f = some ys ↔ xs = ys.map g := by
  constructor
  · intro h
    have all := option_mapM_some h
    clear h
    induction all with
    | nil => rfl
    | cons hxy _ ih => rw [List.map_cons, ← ih, (hf _ _).mp hxy]
  · rintro rfl
    induction ys with
    | nil => rfl
    | cons y ys ih => simp [List.mapM_cons, (hf _ _).mpr rfl, ih]

/-! ## Results of matching lists -/

theorem mem_of_forall₂_right {R : α → β → Prop} {xs : List α} {ys : List β} (h : List.Forall₂ R xs ys)
    {y : β} (hy : y ∈ ys) : ∃ x ∈ xs, R x y := by
  induction h with
  | nil => cases hy
  | @cons x z xs ys hxz _ ih =>
    rcases List.mem_cons.mp hy with rfl | hy
    · exact ⟨x, List.mem_cons_self, hxz⟩
    · obtain ⟨x', hx', hr⟩ := ih hy
      exact ⟨x', List.mem_cons_of_mem _ hx', hr⟩

theorem mem_of_forall₂_left {R : α → β → Prop} {xs : List α} {ys : List β} (h : List.Forall₂ R xs ys)
    {x : α} (hx : x ∈ xs) : ∃ y ∈ ys, R x y :=
  mem_of_forall₂_right h.flip hx

/-- What stands at one place of a list has its result at the same place. -/
theorem getElem?_of_forall₂_left {R : α → β → Prop} {xs : List α} {ys : List β} (h : List.Forall₂ R xs ys)
    {i : Nat} {x : α} (hx : xs[i]? = some x) : ∃ y, ys[i]? = some y ∧ R x y := by
  induction h generalizing i with
  | nil => cases hx
  | cons hr _ ih =>
    cases i with
    | zero =>
      cases hx
      exact ⟨_, rfl, hr⟩
    | succ i => exact ih hx

theorem getElem?_of_forall₂_right {R : α → β → Prop} {xs : List α} {ys : List β}
    (h : List.Forall₂ R xs ys) {i : Nat} {y : β} (hy : ys[i]? = some y) : ∃ x, xs[i]? = some x ∧ R x y :=
  getElem?_of_forall₂_left h.flip hy

theorem forall₂_of_getElem? {R : α → β → Prop} {xs : List α} {ys : List β} (hlen : xs.length = ys.length)
    (h : ∀ (i : Nat) x y, xs[i]? = some x → ys[i]? = some y → R x y) : List.Forall₂ R xs ys := by
  induction xs generalizing ys with
  | nil =>
    cases ys with
    | nil => exact .nil
    | cons y ys => cases hlen
  | cons x xs ih =>
    cases ys with
    | nil => cases hlen
    | cons y ys =>
      apply List.Forall₂.cons
      · exact h 0 x y rfl rfl
      · apply ih (Nat.succ.inj hlen)
        intro i x' y' hx hy
        exact h (i + 1) x' y' hx hy

theorem map_eq_of_forall₂ {γ : Type} {f : α → γ} {g : β → γ} {xs : List α} {ys : List β}
    (h : List.Forall₂ (fun x y => f x = g y) xs ys) : xs.map f = ys.map g := by
  induction h with
  | nil => rfl
  | cons hxy _ ih => rw [List.map_cons, List.map_cons, hxy, ih]

/-- The same places of two lists hold what belongs together. -/
theorem forall₂_filterMap_getElem? {R : α → β → Prop} {xs : List α} {ys : List β} (h : List.Forall₂ R xs ys)
    (places : List Nat) : List.Forall₂ R (places.filterMap (xs[·]?)) (places.filterMap (ys[·]?)) := by
  induction places with
  | nil => exact .nil
  | cons i places ih =>
    rw [List.filterMap_cons, List.filterMap_cons]
    cases hx : xs[i]? with
    | none =>
      have hy : ys[i]? = none := by
        rw [List.getElem?_eq_none_iff] at hx ⊢
        rwa [← h.length_eq]
      rwa [hy]
    | some x =>
      obtain ⟨y, hy, hxy⟩ := getElem?_of_forall₂_left h hx
      rw [hy]
      exact .cons hxy ih

/-! ## Places of a list -/

theorem filterMap_getElem?_range (xs : List α) : (List.range xs.length).filterMap (xs[·]?) = xs := by
  induction xs with
  | nil => rfl
  | cons x xs ih => simpa [List.range_succ_eq_map, List.filterMap_map, Function.comp_def] using ih

/-- Places that are all there give something each. -/
theorem getElem?_filterMap_places {xs : List α} {places : List Nat} (h : ∀ i ∈ places, i < xs.length) (j : Nat) :
    (places.filterMap (xs[·]?))[j]? = places[j]?.bind (xs[·]?) := by
  induction places generalizing j with
  | nil => simp
  | cons i places ih =>
    have hi := h i List.mem_cons_self
    have hrest := ih fun i' hi' => h i' (List.mem_cons_of_mem _ hi')
    cases j <;> simp [hi, hrest]

/-! ## First occurrences -/

/-- Only what is new goes to the end of the first occurrences. -/
theorem eraseDups_concat [BEq α] [LawfulBEq α] (xs : List α) (x : α) :
    (xs ++ [x]).eraseDups = if x ∈ xs then xs.eraseDups else xs.eraseDups ++ [x] := by
  rw [List.eraseDups_append]
  by_cases hx : x ∈ xs <;> simp [List.removeAll, List.eraseDups_cons, hx]

/-! ## Lists of keyed values -/

theorem mem_of_lookup [BEq α] [LawfulBEq α] {k : α} {v : β} {xs : List (α × β)}
    (h : List.lookup k xs = some v) : (k, v) ∈ xs := by
  obtain ⟨before, after, rfl, -⟩ := List.lookup_eq_some_iff.mp h
  exact List.mem_append_right _ List.mem_cons_self

end PatternDispatch

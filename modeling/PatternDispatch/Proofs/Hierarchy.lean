-- The laws of subclassing. Where every parent was issued before its child, the
-- search ends in time, and it finds just the classes above. A class keeps what is
-- above it when other classes are defined later.
import Mathlib.Algebra.Group.Action.Defs
import Mathlib.Algebra.Order.BigOperators.Group.List
import Mathlib.Algebra.Order.Ring.Nat
import Mathlib.Data.List.Induction
import Mathlib.Logic.Relation
import PatternDispatch.Hierarchy

namespace PatternDispatch.Registry

open Relation

variable {r : Registry} {a b c sup : ClassId} {i : ClassInfo} {d : ClassDef} {fuel : Nat}
  {pending next : List ClassId} {found : Bool}

/-! ## Classes above a class -/

/-- `b` is the superclass or an interface of `a`. -/
def Parent (r : Registry) (a b : ClassId) : Prop := b ∈ r.parents a

instance (r : Registry) (a b : ClassId) : Decidable (r.Parent a b) :=
  inferInstanceAs (Decidable (b ∈ r.parents a))

theorem parent_iff : r.Parent a b ↔ ∃ i, r.info? a = some i ∧ b ∈ i.parents := by
  unfold Parent parents
  cases r.info? a <;> simp

/-- Every parent was issued before its child. -/
def Ordered (r : Registry) : Prop := ∀ a b, r.Parent a b → b.index < a.index

/-! ## Turns of the search -/

/-- A turn that does not find `sup`: the class on top gives way to its parents, and
the last one of them is on top next. -/
inductive Turn (r : Registry) (sup : ClassId) : List ClassId → List ClassId → Prop
  | look {c : ClassId} {pending : List ClassId} :
    sup ∉ r.parents c → Turn r sup (c :: pending) ((r.parents c).reverse ++ pending)

/-- The search is over: nothing is pending, or `sup` is a parent of the class on top. -/
inductive Over (r : Registry) (sup : ClassId) : List ClassId → Bool → Prop
  | missed : Over r sup [] false
  | found {c : ClassId} {pending : List ClassId} : sup ∈ r.parents c → Over r sup (c :: pending) true

/-- Turn by turn, however many it takes, the search comes to the answer. -/
def Answers (r : Registry) (sup : ClassId) (pending : List ClassId) (found : Bool) : Prop :=
  ∃ last, ReflTransGen (r.Turn sup) pending last ∧ r.Over sup last found

theorem answers_of_search (h : r.search sup fuel pending = some found) : r.Answers sup pending found := by
  fun_induction search r sup fuel pending with
  | case1 =>
    cases h
    exact ⟨[], .refl, .missed⟩
  | case2 => cases h
  | case3 fuel c pending hsup =>
    cases h
    exact ⟨_, .refl, .found hsup⟩
  | case4 fuel c pending hsup ih =>
    obtain ⟨last, hturns, hover⟩ := ih h
    exact ⟨last, .head (.look hsup) hturns, hover⟩

/-- Whatever is above a class is a parent of it, or above one. -/
theorem above_iff : TransGen r.Parent c sup ↔ sup ∈ r.parents c ∨ ∃ p ∈ r.parents c, TransGen r.Parent p sup := by
  rw [TransGen.head'_iff]
  constructor
  · rintro ⟨p, hparent, hpath⟩
    rcases reflTransGen_iff_eq_or_transGen.mp hpath with rfl | hpath
    · exact Or.inl hparent
    · exact Or.inr ⟨p, hparent, hpath⟩
  · rintro (hsup | ⟨p, hparent, habove⟩)
    · exact ⟨sup, hsup, .refl⟩
    · exact ⟨p, hparent, habove.to_reflTransGen⟩

/-- A turn loses no class above the pending ones, and adds none. -/
theorem Turn.above_iff (h : r.Turn sup pending next) :
    (∃ c ∈ pending, TransGen r.Parent c sup) ↔ ∃ c ∈ next, TransGen r.Parent c sup := by
  cases h with
  | @look c pending hsup =>
    have hc : TransGen r.Parent c sup ↔ ∃ p ∈ r.parents c, TransGen r.Parent p sup :=
      Registry.above_iff.trans (or_iff_right hsup)
    simp only [List.mem_cons, List.mem_append, List.mem_reverse, or_and_right, exists_or, exists_eq_left, hc]

/-- The search finds just the classes above the pending ones. -/
theorem Answers.found_iff (h : r.Answers sup pending found) :
    found = true ↔ ∃ c ∈ pending, TransGen r.Parent c sup := by
  obtain ⟨last, hturns, hover⟩ := h
  induction hturns using ReflTransGen.head_induction_on with
  | refl =>
    cases hover with
    | missed => simp
    | found hsup => simpa using Or.inl (.single hsup)
  | head hturn _ ih => rw [ih, hturn.above_iff]

/-! ## The search ends in time -/

theorem le_foldl_max (f : ClassInfo → Nat) (xs : List ClassInfo) (n : Nat) :
    n ≤ xs.foldl (fun w i => max w (f i)) n ∧ ∀ x ∈ xs, f x ≤ xs.foldl (fun w i => max w (f i)) n := by
  induction xs generalizing n with
  | nil => simp
  | cons x xs ih =>
    obtain ⟨hn, hxs⟩ := ih (max n (f x))
    rw [List.foldl_cons]
    refine ⟨by omega, ?_⟩
    intro y hy
    rcases List.mem_cons.mp hy with rfl | hy
    · omega
    · exact hxs y hy

theorem length_parents_le (r : Registry) (c : ClassId) : (r.parents c).length ≤ r.width := by
  unfold parents
  split
  · rename_i i hi
    unfold width
    rw [← Array.foldl_toList]
    exact (le_foldl_max (·.parents.length) _ _).2 i (Array.mem_toList_iff.mpr (Array.mem_of_getElem? hi))
  · simp

/-- A bound on the steps that one pending class takes. Every class that the registry
lacks counts as the next one. -/
def effort (r : Registry) (c : ClassId) : Nat := (r.width + 1) ^ (min c.index r.size + 1)

theorem index_lt_of_parent (h : r.Parent a b) : a.index < r.size := by
  obtain ⟨i, hi, -⟩ := parent_iff.mp h
  exact (Array.getElem?_eq_some_iff.mp hi).1

theorem effort_pos (r : Registry) (c : ClassId) : 0 < r.effort c := Nat.pow_pos (by omega)

/-- A class takes one step, and those of its parents. -/
theorem effort_parents (hr : r.Ordered) (c : ClassId) : ((r.parents c).map r.effort).sum < r.effort c := by
  have hbound : ∀ p ∈ r.parents c, r.effort p ≤ (r.width + 1) ^ min c.index r.size := by
    intro p hp
    have hlt := hr c p hp
    have hsize := index_lt_of_parent hp
    exact Nat.pow_le_pow_right (by omega) (by omega)
  have hsum := List.sum_le_card_nsmul ((r.parents c).map r.effort) _ (by simpa using hbound)
  have hmul := Nat.mul_le_mul_right ((r.width + 1) ^ min c.index r.size) (length_parents_le r c)
  have hpos : 0 < (r.width + 1) ^ min c.index r.size := Nat.pow_pos (by omega)
  rw [List.length_map, smul_eq_mul] at hsum
  rw [effort, Nat.pow_succ, Nat.mul_succ, Nat.mul_comm _ r.width]
  omega

/-- Every turn takes the effort of the class on top, and puts on less. -/
theorem Turn.effort_lt (hr : r.Ordered) (h : r.Turn sup pending next) :
    (next.map r.effort).sum < (pending.map r.effort).sum := by
  cases h with
  | @look c pending hsup =>
    have := effort_parents hr c
    simp
    omega

/-- No search goes on for ever, whatever is pending. -/
theorem wellFounded_turn (hr : r.Ordered) (sup : ClassId) :
    WellFounded fun next pending => r.Turn sup pending next :=
  Subrelation.wf (fun hturn => hturn.effort_lt hr)
    (measure fun pending : List ClassId => (pending.map r.effort).sum).wf

/-- The search ends in time. -/
theorem search_isSome (hr : r.Ordered) (h : (pending.map r.effort).sum ≤ fuel) :
    (r.search sup fuel pending).isSome := by
  fun_induction search r sup fuel pending with
  | case1 => rfl
  | case2 c pending =>
    have := r.effort_pos c
    simp at h
    omega
  | case3 => rfl
  | case4 fuel c pending hsup ih =>
    have hturn : r.Turn sup (c :: pending) _ := .look hsup
    have := hturn.effort_lt hr
    exact ih (by omega)

/-! ## Subclassing -/

/-- The steps that are allowed are enough for a search from one class. -/
theorem search_from_isSome (hr : r.Ordered) (a b : ClassId) : (r.search b r.patience [a]).isSome := by
  apply search_isSome hr
  have := Nat.pow_le_pow_right (Nat.succ_pos r.width) (Nat.succ_le_succ (Nat.min_le_right a.index r.size))
  simpa [effort, patience] using this

/-- A class is a subclass of `Object`, of itself, and of all classes above it. -/
theorem isSubclass_iff (hr : r.Ordered) : r.isSubclass a b ↔ b = .object ∨ ReflTransGen r.Parent a b := by
  obtain ⟨found, hfound⟩ := Option.isSome_iff_exists.mp (search_from_isSome hr a b)
  have hsearch : found = true ↔ TransGen r.Parent a b := by
    simpa using (answers_of_search hfound).found_iff
  rw [reflTransGen_iff_eq_or_transGen, ← hsearch]
  simp only [isSubclass, hfound, Option.getD_some, Bool.or_eq_true, beq_iff_eq]
  grind

/-- Above a class are classes that were issued before it. -/
theorem index_lt_of_above (hr : r.Ordered) (h : TransGen r.Parent a b) :
    b.index < a.index ∧ a.index < r.size := by
  induction h with
  | single h => exact ⟨hr a _ h, index_lt_of_parent h⟩
  | tail _ h ih => exact ⟨Nat.lt_trans (hr _ _ h) ih.1, ih.2⟩

/-! ## Later definitions -/

/-- Every class of the first registry is known in the second one as what it was. -/
def Within (r r' : Registry) : Prop := ∀ c i, r.info? c = some i → r'.info? c = some i

theorem Within.refl (r : Registry) : r.Within r := fun _ _ h => h

theorem Within.trans {r' r'' : Registry} (h : r.Within r') (h' : r'.Within r'') : r.Within r'' :=
  fun c i hi => h' c i (h c i hi)

theorem within_issue (r : Registry) (i : ClassInfo) : r.Within (r.issue i) := by
  intro c j hj
  have hlt := (Array.getElem?_eq_some_iff.mp hj).1
  unfold info? issue at *
  rw [Array.getElem?_push_lt hlt, ← hj, Array.getElem?_eq_getElem hlt]

theorem define_cases (r : Registry) (d : ClassDef) : (r.define d).2 = r ∨ (r.define d).2 = r.issue d.info := by
  unfold define
  split
  · exact Or.inl rfl
  · exact Or.inr rfl

theorem within_define (r : Registry) (d : ClassDef) : r.Within (r.define d).2 := by
  rcases define_cases r d with h | h
  · rw [h]
    exact .refl r
  · rw [h]
    exact within_issue r d.info

theorem Within.parent {r' : Registry} (h : r.Within r') (hab : r.Parent a b) : r'.Parent a b := by
  obtain ⟨i, hi, hb⟩ := parent_iff.mp hab
  exact parent_iff.mpr ⟨i, h a i hi, hb⟩

/-- A class keeps everything that it comes below. -/
theorem Within.isSubclass {r' : Registry} (h : r.Within r') (hr : r.Ordered) (hr' : r'.Ordered)
    (hab : r.isSubclass a b) : r'.isSubclass a b := by
  rcases (isSubclass_iff hr).mp hab with hobject | hpath
  · exact (isSubclass_iff hr').mpr (Or.inl hobject)
  · exact (isSubclass_iff hr').mpr (Or.inr (ReflTransGen.mono (fun _ _ => h.parent) a b hpath))

/-- Whatever is issued has its parents from the definition, and all else what it had. -/
theorem parent_issue (hab : (r.issue i).Parent a b) : r.Parent a b ∨ a.index = r.size ∧ b ∈ i.parents := by
  obtain ⟨j, hj, hb⟩ := parent_iff.mp hab
  unfold info? issue at hj
  rw [Array.getElem?_push] at hj
  split at hj
  · cases hj
    exact Or.inr ⟨‹_›, hb⟩
  · exact Or.inl (parent_iff.mpr ⟨j, hj, hb⟩)

theorem Ordered.issue (hr : r.Ordered) (hi : ∀ c ∈ i.parents, c.index < r.size) : (r.issue i).Ordered := by
  intro a b hab
  rcases parent_issue hab with hab | ⟨ha, hb⟩
  · exact hr a b hab
  · rw [ha]
    exact hi b hb

theorem Ordered.define (hr : r.Ordered) (hd : ∀ c ∈ d.info.parents, c.index < r.size) :
    (r.define d).2.Ordered := by
  rcases define_cases r d with h | h
  · rwa [h]
  · rw [h]
    exact hr.issue hd

/-- A definition gives no class but the new one another class above it. -/
theorem above_issue (hr : r.Ordered) (ha : a.index ≠ r.size) :
    TransGen (r.issue i).Parent a b ↔ TransGen r.Parent a b := by
  refine ⟨?_, TransGen.mono (fun _ _ h => (within_issue r i).parent h) a b⟩
  intro h
  induction h with
  | single h =>
    rcases parent_issue h with h | ⟨heq, -⟩
    · exact .single h
    · exact absurd heq ha
  | tail _ h ih =>
    rcases parent_issue h with h | ⟨heq, -⟩
    · exact ih.tail h
    · have := index_lt_of_above hr ih
      omega

theorem isSubclass_issue (hr : r.Ordered) (hi : ∀ c ∈ i.parents, c.index < r.size) (ha : a.index ≠ r.size) :
    (r.issue i).isSubclass a b = r.isSubclass a b := by
  rw [Bool.eq_iff_iff, isSubclass_iff (hr.issue hi), isSubclass_iff hr, reflTransGen_iff_eq_or_transGen,
    reflTransGen_iff_eq_or_transGen, above_issue hr ha]

theorem isSubclass_define (hr : r.Ordered) (hd : ∀ c ∈ d.info.parents, c.index < r.size)
    (ha : a.index ≠ r.size) : (r.define d).2.isSubclass a b = r.isSubclass a b := by
  rcases define_cases r d with h | h
  · rw [h]
  · rw [h, isSubclass_issue hr hd ha]

/-! ## Registries that a program can come to -/

/-- The registry holds what was defined one by one, each class after its parents. -/
inductive Grown : Registry → Prop
  | initial : Grown initial
  | define {r : Registry} (d : ClassDef) :
    Grown r → (∀ c ∈ d.info.parents, c.index < r.size) → Grown (r.define d).2

theorem ordered_initial : initial.Ordered := by
  have hplaces : ∀ n < 14, ∀ i, initial.classes[n]? = some i → ∀ b ∈ i.parents, b.index < n := by decide
  intro a b hab
  have hsize : a.index < 14 := index_lt_of_parent hab
  obtain ⟨i, hi, hb⟩ := parent_iff.mp hab
  exact hplaces a.index hsize i hi b hb

theorem Grown.ordered (h : r.Grown) : r.Ordered := by
  induction h with
  | initial => exact ordered_initial
  | define d _ hd ih => exact ih.define hd

/-- The registry after the definitions, one after another. -/
def defineAll (r : Registry) (ds : List ClassDef) : Registry := ds.foldl (fun r d => (r.define d).2) r

@[simp] theorem defineAll_nil (r : Registry) : r.defineAll [] = r := rfl

@[simp] theorem defineAll_concat (r : Registry) (ds : List ClassDef) (d : ClassDef) :
    r.defineAll (ds ++ [d]) = ((r.defineAll ds).define d).2 := List.foldl_concat _ _ _ _

/-- Each definition names only classes that were issued before it. -/
def InOrder (ds : List ClassDef) : Prop :=
  ∀ before d after, ds = before ++ d :: after →
    ∀ c ∈ d.info.parents, c.index < (initial.defineAll before).size

theorem InOrder.of_concat {ds : List ClassDef} (h : InOrder (ds ++ [d])) :
    InOrder ds ∧ ∀ c ∈ d.info.parents, c.index < (initial.defineAll ds).size := by
  refine ⟨?_, h ds d [] rfl⟩
  intro before d' after heq
  exact h before d' (after ++ [d]) (by simp [heq])

theorem InOrder.grown {ds : List ClassDef} (h : InOrder ds) : (initial.defineAll ds).Grown := by
  induction ds using List.reverseRecOn with
  | nil => exact .initial
  | append_singleton ds d ih =>
    obtain ⟨hds, hd⟩ := h.of_concat
    rw [defineAll_concat]
    exact .define d (ih hds) hd

end PatternDispatch.Registry

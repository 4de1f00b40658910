-- The laws of membership. Boxed classes stay apart: no string and no scalar of another
-- kind comes below one. A legal value keeps this up, and its records hold what their
-- components accept.
import PatternDispatch.Proofs.Hierarchy
import PatternDispatch.Value.Membership

namespace PatternDispatch

variable {r r' : Registry} {c b : ClassId} {k : Scalar} {t : Ty} {v w : Value}

namespace Registry

open Relation

/-! ## The classes of scalars and strings -/

theorem Within.parents_eq (h : r.Within r') {i : ClassInfo} (hi : r.info? c = some i) :
    r'.parents c = r.parents c := by
  unfold parents
  rw [hi, h c i hi]

/-- The classes of scalars and strings, and those above them. -/
def basics : List ClassId := .string :: .object :: .number :: Scalar.all.map Scalar.boxed

theorem parents_basics (h : initial.Within r) : ∀ c ∈ basics, ∀ p ∈ r.parents c, p = .object ∨ p = .number := by
  have hinitial : ∀ c ∈ basics, (initial.info? c).isSome ∧
      ∀ p ∈ initial.parents c, p = .object ∨ p = .number := by decide
  intro c hc
  obtain ⟨hsome, hparents⟩ := hinitial c hc
  obtain ⟨i, hi⟩ := Option.isSome_iff_exists.mp hsome
  rwa [h.parents_eq hi]

theorem above_basics (h : initial.Within r) (hc : c ∈ basics) (habove : TransGen r.Parent c b) :
    b = .object ∨ b = .number := by
  induction habove with
  | single hp => exact parents_basics h c hc _ hp
  | tail _ hp ih => rcases ih with rfl | rfl <;> exact parents_basics h _ (by decide) _ hp

/-- None of these classes comes below a boxed class. -/
theorem eq_of_isSubclass_boxed (h : initial.Within r) (hc : c ∈ basics) (hsub : r.isSubclass c k.boxed) :
    c = k.boxed := by
  have hobject : k.boxed ≠ .object ∧ k.boxed ≠ .number := by cases k <;> decide
  unfold isSubclass at hsub
  rcases Bool.or_eq_true_iff.mp hsub with hsub | hsearch
  · rcases Bool.or_eq_true_iff.mp hsub with heq | heq
    · exact beq_iff_eq.mp heq
    · exact absurd (beq_iff_eq.mp heq) hobject.1
  · cases hfound : r.search k.boxed r.patience [c] with
    | none => simp [hfound] at hsearch
    | some found =>
      rw [hfound] at hsearch
      cases hsearch
      obtain ⟨c', hc', habove⟩ := (answers_of_search hfound).found_iff.mp rfl
      cases List.mem_singleton.mp hc'
      rcases above_basics h hc habove with heq | heq
      · exact absurd heq hobject.1
      · exact absurd heq hobject.2

/-- A record that was issued stays what it is. -/
theorem Within.components (h : r.Within r') {components : List Component}
    (hc : (r.info c).components? = some components) : (r'.info c).components? = some components := by
  unfold info at hc ⊢
  cases hi : r.info? c with
  | none =>
    rw [hi] at hc
    cases hc
  | some i =>
    rw [hi] at hc
    rw [h c i hi]
    exact hc

end Registry

theorem Scalar.boxed_mem_basics (k : Scalar) : k.boxed ∈ Registry.basics := by cases k <;> decide

theorem Scalar.boxed_inj {k k' : Scalar} (h : k.boxed = k'.boxed) : k = k' := by
  have h := congrArg Scalar.ofBoxed? h
  rwa [ofBoxed?_boxed, ofBoxed?_boxed, Option.some.injEq] at h

namespace Value

/-! ## Instances -/

theorem class?_eq_none_iff : v.class? = none ↔ v = .null := by
  cases v <;> simp [class?, scalar?]

/-- A reference type accepts null and the instances of its class. -/
theorem accepts_ref : (Ty.ref c).accepts r v = (v.isNull || v.isInstance r c) := by
  unfold Ty.accepts isInstance
  cases hclass : v.class? with
  | none => simp [isNull_iff.mpr (class?_eq_none_iff.mp hclass)]
  | some d =>
    have hv : ¬ v.isNull := by
      rw [isNull_iff, ← class?_eq_none_iff, hclass]
      simp
    simp [hv]

theorem class?_of_scalar? (h : v.scalar? = some k) : v.class? = some k.boxed := by
  cases v <;> simp_all [class?, scalar?]

/-! ## Legal values -/

/-- The value itself, or one in a field of an object, however deep. -/
inductive Occurs (w : Value) : Value → Prop
  | self : Occurs w w
  | field {c : ClassId} {fields : List Value} {f : Value} :
    f ∈ fields → Occurs w f → Occurs w (.object c fields)

/-- In a legal value all fields of records are accepted by their components, and only
scalars have boxed classes. -/
structure Legal (r : Registry) (v : Value) : Prop where
  fields : ∀ c fields components, (object c fields).Occurs v → (r.info c).components? = some components →
    ∀ (i : Nat) component f, components[i]? = some component → fields[i]? = some f → component.ty.accepts r f
  unboxed : ∀ (w : Value) c, w.Occurs v → w.scalar? = none → w.text? = none → w.class? = some c →
    ∀ k : Scalar, r.isSubclass c k.boxed = false

theorem legal_null (r : Registry) : Value.null.Legal r := by
  refine ⟨?_, ?_⟩
  · intro c fields components hoccurs
    cases hoccurs
  · intro w c hoccurs _ _ hclass
    cases hoccurs
    cases hclass

theorem Legal.field {fields : List Value} (h : (object c fields).Legal r) (hw : w ∈ fields) : w.Legal r :=
  ⟨fun c' fields' components hoccurs => h.fields c' fields' components (.field hw hoccurs),
    fun w' c' hoccurs => h.unboxed w' c' (.field hw hoccurs)⟩

/-- No class that the value comes below is a boxed one, unless the value is a scalar. -/
def Unboxed (r : Registry) (v : Value) : Prop :=
  v.scalar? = none → ∀ c, v.class? = some c → ∀ k : Scalar, r.isSubclass c k.boxed = false

theorem Legal.toUnboxed (h : v.Legal r) (hr : Registry.initial.Within r) : v.Unboxed r := by
  intro hscalar c hclass k
  cases htext : v.text? with
  | none => exact h.unboxed v c .self hscalar htext hclass k
  | some s =>
    have hc : c = .string := by cases v <;> simp_all [class?, text?]
    rw [hc, Bool.eq_false_iff]
    intro hsub
    have := Registry.eq_of_isSubclass_boxed hr (by decide) hsub
    cases k <;> cases this

/-- An unboxed instance of a boxed class is a scalar of its kind. -/
theorem Unboxed.scalar?_of_isInstance (h : v.Unboxed r) (hr : Registry.initial.Within r)
    (hv : v.isInstance r k.boxed) : v.scalar? = some k := by
  unfold isInstance at hv
  cases hclass : v.class? with
  | none => simp [hclass] at hv
  | some c =>
    simp only [hclass] at hv
    cases hscalar : v.scalar? with
    | some k' =>
      rw [class?_of_scalar? hscalar] at hclass
      cases hclass
      rw [Scalar.boxed_inj (Registry.eq_of_isSubclass_boxed hr k'.boxed_mem_basics hv)]
    | none =>
      rw [h hscalar c hclass k] at hv
      cases hv

theorem Legal.scalar?_of_isInstance (h : v.Legal r) (hr : Registry.initial.Within r)
    (hv : v.isInstance r k.boxed) : v.scalar? = some k := (h.toUnboxed hr).scalar?_of_isInstance hr hv

end Value

/-- The value is legal, and the type accepts it. -/
structure Ty.Holds (r : Registry) (t : Ty) (v : Value) : Prop where
  accepts : t.accepts r v
  legal : v.Legal r
end PatternDispatch

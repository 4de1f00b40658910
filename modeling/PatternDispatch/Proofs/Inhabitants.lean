-- The law of assignability. A type takes over from another one just when all values of
-- the other one are its own: types of one sort are compared by their values alone.
import PatternDispatch.Proofs.Membership
import PatternDispatch.Proofs.Subclassing

namespace PatternDispatch

variable {r : Registry} {t u : Ty} {v : Value} {k : Scalar} {c : ClassId}

/-! ## A value of each type -/

/-- The value of the kind that has no bit set. -/
def Scalar.zero : Scalar → Value
  | .boolean => .bool false
  | .byte => .byte 0
  | .short => .short 0
  | .char => .char 0
  | .int => .int 0
  | .long => .long 0
  | .float => .float 0
  | .double => .double 0

@[simp] theorem Scalar.scalar?_zero (k : Scalar) : k.zero.scalar? = some k := by cases k <;> rfl

namespace Ty

/-- A value of the type and of no class below: its runtime class is that of the type. -/
def sample : Ty → Value
  | .scalar k => k.zero
  | .ref c => .object c []

@[simp] theorem class?_sample (t : Ty) : t.sample.class? = some t.boxed := by
  cases t with
  | scalar k => exact Value.class?_of_scalar? k.scalar?_zero
  | ref c => rfl

theorem accepts_sample (r : Registry) (t : Ty) : t.accepts r t.sample := by
  cases t with
  | scalar k => simp [accepts, sample]
  | ref c => simp [accepts, sample, Value.class?, Registry.isSubclass_refl]

/-- A reference type accepts the sample of another type just when its class is above it. -/
theorem accepts_sample_ref : (Ty.ref c).accepts r t.sample = r.isSubclass t.boxed c := by
  simp [accepts]

/-! ## Inclusion -/

/-- Every value of `u` is one of `t`. -/
def Includes (r : Registry) (t u : Ty) : Prop := ∀ v, u.accepts r v → t.accepts r v

/-- The instances of a class are those of all classes above it. -/
theorem includes_of_isSubclass (hr : r.Ordered) {a b : ClassId} (h : r.isSubclass b a) :
    (Ty.ref a).Includes r (.ref b) := by
  intro v hv
  unfold accepts at hv ⊢
  cases hclass : v.class? with
  | none => rfl
  | some d =>
    simp only [hclass] at hv ⊢
    exact Registry.isSubclass_trans hr hv h

/-- The values of a scalar kind are instances of its boxed class. -/
theorem includes_of_boxed (h : r.isSubclass k.boxed c) : (Ty.ref c).Includes r (.scalar k) := by
  intro v hv
  simp only [accepts, beq_iff_eq] at hv
  simp only [accepts, Value.class?_of_scalar? hv]
  exact h

theorem includes_of_assignable (hr : r.Ordered) (h : t.assignable r u) : t.Includes r u := by
  cases t with
  | scalar j =>
    cases u with
    | scalar k =>
      obtain rfl := beq_iff_eq.mp h
      exact fun _ hv => hv
    | ref b => cases h
  | ref a =>
    cases u with
    | scalar k => cases h
    | ref b => exact includes_of_isSubclass hr h

/-- A type includes those that are assignable to it, and the scalar ones that are boxed
below its class. Null is in every reference type, so no scalar type includes one. -/
theorem includes_iff (hr : r.Ordered) :
    t.Includes r u ↔ t.assignable r u ∨ ∃ k c, u = .scalar k ∧ t = .ref c ∧ r.isSubclass k.boxed c := by
  constructor
  · intro h
    have hsample := h u.sample (accepts_sample r u)
    cases t with
    | scalar j =>
      cases u with
      | scalar k =>
        simp only [accepts, sample, Scalar.scalar?_zero, beq_iff_eq, Option.some.injEq] at hsample
        exact Or.inl (beq_iff_eq.mpr hsample.symm)
      | ref b =>
        have hnull := h .null rfl
        cases hnull
    | ref a =>
      rw [accepts_sample_ref] at hsample
      cases u with
      | scalar k => exact Or.inr ⟨k, a, rfl, rfl, hsample⟩
      | ref b => exact Or.inl hsample
  · rintro (h | ⟨k, c, rfl, rfl, h⟩)
    · exact includes_of_assignable hr h
    · exact includes_of_boxed h

/-! ## The law -/

/-- Over classes that were defined after the ones they name: of two reference types, and
of two scalar types, one is assignable to the other just when all its values are values
of the other; whatever the types, an assignable one brings no value that the other does
not accept; and the instances of a class are what its reference type accepts but null. -/
theorem types_are_assignable_as_their_values_are_included (h : r.Grown) :
    (∀ a b : ClassId, (Ty.ref a).assignable r (.ref b) ↔
      ∀ v, (Ty.ref b).accepts r v → (Ty.ref a).accepts r v) ∧
    (∀ j k : Scalar, (Ty.scalar j).assignable r (.scalar k) ↔
      ∀ v, (Ty.scalar k).accepts r v → (Ty.scalar j).accepts r v) ∧
    (∀ t u : Ty, t.assignable r u → ∀ v, u.accepts r v → t.accepts r v) ∧
    ∀ (v : Value) (c : ClassId), v.isInstance r c ↔ v ≠ .null ∧ (Ty.ref c).accepts r v := by
  have hr := h.ordered
  refine ⟨?_, ?_, ?_, ?_⟩
  · intro a b
    have hincludes : (Ty.ref a).Includes r (.ref b) ↔ _ := includes_iff hr
    simpa [Includes] using hincludes.symm
  · intro j k
    have hincludes : (Ty.scalar j).Includes r (.scalar k) ↔ _ := includes_iff hr
    simpa [Includes] using hincludes.symm
  · exact fun t u => includes_of_assignable hr
  · intro v c
    by_cases hv : v = .null
    · subst hv
      simp [Value.isInstance, Value.class?]
    · simp [Value.accepts_ref, hv, mt Value.isNull_iff.mp hv]

/-- A class of the program, and one below it. -/
def petsAndDogs : Registry :=
  Registry.initial.defineAll [.named "Pet", (ClassDef.named "Dog").extending ⟨14⟩]

/-- The law on them: every dog is a pet, and some pet is no dog. -/
theorem all_dogs_are_pets :
    petsAndDogs.Grown ∧
      (∀ v, (Ty.ref ⟨15⟩).accepts petsAndDogs v → (Ty.ref ⟨14⟩).accepts petsAndDogs v) ∧
      ¬ ∀ v, (Ty.ref ⟨14⟩).accepts petsAndDogs v → (Ty.ref ⟨15⟩).accepts petsAndDogs v := by
  have hgrown : petsAndDogs.Grown := by
    refine .define _ (.define _ .initial ?_) ?_ <;> decide
  obtain ⟨hiff, -⟩ := types_are_assignable_as_their_values_are_included hgrown
  exact ⟨hgrown, (hiff _ _).mp (by decide), mt (hiff _ _).mpr (by decide)⟩

end Ty

end PatternDispatch

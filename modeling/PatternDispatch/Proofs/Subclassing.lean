-- The law of subclassing. The search keeps no record of the classes that it has
-- looked at and can come to one class in many ways, yet it always ends, and what it
-- answers orders the classes: by the edges that their definitions declare, with
-- `Object` above all of them.
import PatternDispatch.Proofs.Hierarchy

namespace PatternDispatch.Registry

open Relation

variable {r : Registry} {a b c : ClassId}

/-! ## The order of classes -/

/-- Nothing was issued before `Object`, so nothing is above it. -/
theorem not_above_object (hr : r.Ordered) : ¬ TransGen r.Parent .object b := by
  intro h
  have := (index_lt_of_above hr h).1
  exact Nat.not_lt_zero _ this

theorem path_of_isSubclass (hr : r.Ordered) (hb : b ≠ .object) (h : r.isSubclass a b) :
    ReflTransGen r.Parent a b := by
  rcases (isSubclass_iff hr).mp h with hobject | hpath
  · exact absurd hobject hb
  · exact hpath

/-- Only `Object` itself is above `Object`. -/
theorem eq_of_isSubclass_object (hr : r.Ordered) (h : r.isSubclass .object b) : b = .object := by
  rcases (isSubclass_iff hr).mp h with hobject | hpath
  · exact hobject
  · rcases reflTransGen_iff_eq_or_transGen.mp hpath with heq | habove
    · exact heq
    · exact absurd habove (not_above_object hr)

theorem isSubclass_refl (r : Registry) (a : ClassId) : r.isSubclass a a := by
  simp [isSubclass]

theorem isSubclass_trans (hr : r.Ordered) (hab : r.isSubclass a b) (hbc : r.isSubclass b c) :
    r.isSubclass a c := by
  by_cases hc : c = .object
  · exact (isSubclass_iff hr).mpr (Or.inl hc)
  · by_cases hb : b = .object
    · rw [hb] at hbc
      exact absurd (eq_of_isSubclass_object hr hbc) hc
    · have hpath := (path_of_isSubclass hr hb hab).trans (path_of_isSubclass hr hc hbc)
      exact (isSubclass_iff hr).mpr (Or.inr hpath)

theorem isSubclass_antisymm (hr : r.Ordered) (hab : r.isSubclass a b) (hba : r.isSubclass b a) : a = b := by
  by_cases ha : a = .object
  · rw [ha] at hab
    rw [ha, eq_of_isSubclass_object hr hab]
  · by_cases hb : b = .object
    · rw [hb] at hba
      rw [hb, eq_of_isSubclass_object hr hba]
    · -- Two classes above one another would each have been issued before the other.
      rcases reflTransGen_iff_eq_or_transGen.mp (path_of_isSubclass hr hb hab) with heq | hup
      · exact heq.symm
      · rcases reflTransGen_iff_eq_or_transGen.mp (path_of_isSubclass hr ha hba) with heq | hdown
        · exact heq
        · have hlt := (index_lt_of_above hr hup).1
          have hgt := (index_lt_of_above hr hdown).1
          omega

/-- What the search from one class answers is what subclassing goes by. -/
theorem isSubclass_of_answers (hr : r.Ordered) (a b : ClassId) :
    ∃ found, (∀ other, r.Answers b [a] other ↔ other = found) ∧
      r.isSubclass a b = (a == b || b == .object || found) := by
  obtain ⟨found, hfound⟩ := Option.isSome_iff_exists.mp (search_from_isSome hr a b)
  have hanswer := answers_of_search hfound
  refine ⟨found, ?_, by rw [isSubclass, hfound, Option.getD_some]⟩
  intro other
  constructor
  · intro hother
    rw [Bool.eq_iff_iff, hother.found_iff, hanswer.found_iff]
  · rintro rfl
    exact hanswer

/-! ## The law -/

/-- Of classes that were defined after the ones they name, whatever the graph: no
search goes on for ever, and each comes to one answer. A class is a subclass of
`Object` and of what its superclasses and interfaces lead to, in any number of steps.
So subclassing is a partial order. -/
theorem subclassing_is_the_declared_order (h : r.Grown) :
    (∀ sup, WellFounded fun next pending => r.Turn sup pending next) ∧
      (∀ a b, ∃ found, (∀ other, r.Answers b [a] other ↔ other = found) ∧
        r.isSubclass a b = (a == b || b == .object || found)) ∧
      (∀ a b, r.isSubclass a b ↔ b = .object ∨ ReflTransGen r.Parent a b) ∧
      (∀ a, r.isSubclass a a) ∧
      (∀ a b c, r.isSubclass a b → r.isSubclass b c → r.isSubclass a c) ∧
      ∀ a b, r.isSubclass a b → r.isSubclass b a → a = b := by
  have hr := h.ordered
  refine ⟨wellFounded_turn hr, isSubclass_of_answers hr, ?_, isSubclass_refl r, ?_, ?_⟩
  · intro a b
    exact isSubclass_iff hr
  · intro a b c
    exact isSubclass_trans hr
  · intro a b
    exact isSubclass_antisymm hr

/-- An interface, two classes that implement it, and one that comes below both. -/
def diamond : Registry :=
  initial.defineAll [(ClassDef.named "Shape").asInterface, (ClassDef.named "Round").implementing ⟨14⟩,
    (ClassDef.named "Flat").implementing ⟨14⟩, ((ClassDef.named "Disc").extending ⟨15⟩).implementing ⟨16⟩]

/-- The law on a diamond: its lowest class comes below the top one, and not the other
way round. -/
theorem the_diamond_is_ordered :
    diamond.Grown ∧ diamond.isSubclass ⟨17⟩ ⟨14⟩ ∧ ¬ diamond.isSubclass ⟨14⟩ ⟨17⟩ := by
  have hgrown : diamond.Grown := by
    refine .define _ (.define _ (.define _ (.define _ .initial ?_) ?_) ?_) ?_ <;> decide
  obtain ⟨-, -, hiff, -, htrans, hantisymm⟩ := subclassing_is_the_declared_order hgrown
  have hflat : diamond.isSubclass ⟨16⟩ ⟨14⟩ := (hiff _ _).mpr (Or.inr (.single (by decide)))
  have hdisc : diamond.isSubclass ⟨17⟩ ⟨16⟩ := (hiff _ _).mpr (Or.inr (.single (by decide)))
  have hup := htrans _ _ _ hdisc hflat
  refine ⟨hgrown, hup, ?_⟩
  intro hdown
  cases hantisymm _ _ hup hdown

end PatternDispatch.Registry

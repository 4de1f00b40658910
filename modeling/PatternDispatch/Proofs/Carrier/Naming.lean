-- The laws of the class names of carriers. The name tells the shape, so shapes
-- never share a class, and a request fails only over a class of the program.
import PatternDispatch.Proofs.Carrier.Requests
import PatternDispatch.Proofs.Naming

namespace PatternDispatch

/-! ## The name of a shape -/

theorem bar_not_mem_toString (n : Nat) : '_' ∉ (toString n).toList := by
  intro h
  rw [Nat.toString_eq_repr, Nat.toList_repr] at h
  have hdigit : '_'.isDigit := Nat.isDigit_of_mem_toDigits (by decide) (by decide) h
  exact absurd hdigit (by decide)

theorem toString_inj {m n : Nat} (h : (toString m).toList = (toString n).toList) : m = n := by
  rw [Nat.toString_eq_repr, Nat.toString_eq_repr, Nat.toList_repr, Nat.toList_repr] at h
  have hvalue := congrArg (fun digits => Nat.ofDigitChars 10 digits 0) h
  simpa using hvalue

/-- A mark that is not before it tells where a list parts. -/
theorem append_cons_inj {α : Type} {mark : α} {xs xs' ys ys' : List α} (hxs : mark ∉ xs)
    (hxs' : mark ∉ xs') (h : xs ++ mark :: ys = xs' ++ mark :: ys') : xs = xs' ∧ ys = ys' := by
  induction xs generalizing xs' with
  | nil =>
    cases xs' with
    | nil => exact ⟨rfl, (List.cons.inj h).2⟩
    | cons x' xs' => exact absurd ((List.cons.inj h).1 ▸ List.mem_cons_self) hxs'
  | cons x xs ih =>
    cases xs' with
    | nil => exact absurd ((List.cons.inj h).1 ▸ List.mem_cons_self) hxs
    | cons x' xs' =>
      obtain ⟨hx, h⟩ := List.cons.inj h
      obtain ⟨hrest, hys⟩ := ih (List.not_mem_of_not_mem_cons hxs) (List.not_mem_of_not_mem_cons hxs') h
      exact ⟨by rw [hx, hrest], hys⟩

/-- The name tells the shape: no count runs past the bar after it. -/
theorem Shape.name_injective : Function.Injective Shape.name := by
  rintro ⟨refs, narrow, wide⟩ ⟨refs', narrow', wide'⟩ h
  have hi : "_i".toList = ['_', 'i'] := rfl
  have hl : "_l".toList = ['_', 'l'] := rfl
  have hlist := congrArg String.toList h
  simp only [Shape.name, String.toList_append, List.append_assoc, hi, hl, List.cons_append,
    List.nil_append] at hlist
  have hlist := List.append_cancel_left hlist
  obtain ⟨hrefs, hlist⟩ := append_cons_inj (bar_not_mem_toString _) (bar_not_mem_toString _) hlist
  have hlist := (List.cons.inj hlist).2
  obtain ⟨hnarrow, hlist⟩ := append_cons_inj (bar_not_mem_toString _) (bar_not_mem_toString _) hlist
  have hwide := (List.cons.inj hlist).2
  rw [UInt64.toNat_inj.mp (toString_inj hrefs), UInt64.toNat_inj.mp (toString_inj hnarrow),
    UInt64.toNat_inj.mp (toString_inj hwide)]

namespace CanonicalCarrier

variable {s : Shape} {r : Registry} {c : ClassId}

/-! ## Names that are taken -/

/-- The name is taken when a class has it that cannot stand for carriers. -/
theorem not_admissible_iff (hsize : (r.define (classDef s)).2.size ≤ 2 ^ 32) :
    ¬ Admissible s r ↔ ∃ c, r.lookup? s.name = some c ∧ ¬ isCarrierClass (r.info c) := by
  cases hlookup : r.lookup? s.name with
  | some c => simp [admissible_of_lookup_some hlookup]
  | none =>
    have hdefine : r.define (classDef s) = (.ofIndex r.size, r.issue (classDef s).info) :=
      Registry.define_of_lookup_none hlookup
    rw [hdefine, Registry.size_issue] at hsize
    simp [admissible_of_lookup_none (by omega) hlookup]

/-- A request that fails over the name leaves the classes as they were. -/
theorem define_of_not_admissible (hsize : (r.define (classDef s)).2.size ≤ 2 ^ 32)
    (h : ¬ Admissible s r) : (r.define (classDef s)).2 = r := by
  obtain ⟨c, hlookup, -⟩ := (not_admissible_iff hsize).mp h
  rw [Registry.define_of_lookup_some (d := classDef s) hlookup]

end CanonicalCarrier

end PatternDispatch

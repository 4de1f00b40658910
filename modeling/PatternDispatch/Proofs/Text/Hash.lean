-- The law of the hash of a text. It is the polynomial in 31 over the 16-bit units of the
-- text, modulo 2 ^ 32, so the hash of two texts in a row follows from the hashes of both
-- and the length of the second.
import Mathlib.Algebra.BigOperators.Fin
import Mathlib.Data.Int.ModEq
import Mathlib.Tactic.Ring
import PatternDispatch.Text.Units

namespace PatternDispatch.Text

/-! ## Units -/

/-- Text and its units: a character below 65536 is one unit, and any other is a high and a
low surrogate, with ten bits each of what it is above 65536. -/
inductive Utf16 : List Char → List UInt16 → Prop
  | nil : Utf16 [] []
  | single {c : Char} {u : UInt16} {cs : List Char} {us : List UInt16} :
    u.toNat = c.toNat → Utf16 cs us → Utf16 (c :: cs) (u :: us)
  | surrogates {c : Char} {high low : UInt16} {x y : Nat} {cs : List Char} {us : List UInt16} :
    x < 0x400 → y < 0x400 → high.toNat = 0xD800 + x → low.toNat = 0xDC00 + y →
    c.toNat = 0x10000 + 0x400 * x + y → Utf16 cs us → Utf16 (c :: cs) (high :: low :: us)

theorem toNat_lt (c : Char) : c.toNat < 0x110000 := by
  have hvalid : c.toNat < 0xD800 ∨ 0xDFFF < c.toNat ∧ c.toNat < 0x110000 := c.valid
  omega

theorem toNat_toUInt16 {n : Nat} (h : n < 2 ^ 16) : n.toUInt16.toNat = n := by
  rw [Nat.toUInt16, UInt16.toNat_ofNat', Nat.mod_eq_of_lt h]

theorem charUnits_of_lt {c : Char} {u : UInt16} (h : u.toNat = c.toNat) : charUnits c = [u] := by
  have hlt : c.toNat < 0x10000 := by
    rw [← h]
    exact u.toNat_lt
  rw [charUnits, if_pos hlt, ← UInt16.toNat_inj.mp (h.trans (toNat_toUInt16 hlt).symm)]

theorem charUnits_of_surrogates {c : Char} {high low : UInt16} {x y : Nat} (hx : x < 0x400) (hy : y < 0x400)
    (hhigh : high.toNat = 0xD800 + x) (hlow : low.toNat = 0xDC00 + y)
    (hc : c.toNat = 0x10000 + 0x400 * x + y) : charUnits c = [high, low] := by
  have hdiv : (c.toNat - 0x10000) / 0x400 = x := by omega
  have hmod : (c.toNat - 0x10000) % 0x400 = y := by omega
  simp only [charUnits, if_neg (show ¬ c.toNat < 0x10000 by omega), hdiv, hmod, ← hhigh, ← hlow]
  simp

theorem Utf16.eq_flatMap {cs : List Char} {us : List UInt16} (h : Utf16 cs us) : us = cs.flatMap charUnits := by
  induction h with
  | nil => rfl
  | single hu _ ih => rw [List.flatMap_cons, charUnits_of_lt hu, ← ih, List.singleton_append]
  | surrogates hx hy hhigh hlow hc _ ih =>
    rw [List.flatMap_cons, charUnits_of_surrogates hx hy hhigh hlow hc, ← ih]
    rfl

theorem utf16_flatMap (cs : List Char) : Utf16 cs (cs.flatMap charUnits) := by
  induction cs with
  | nil => exact .nil
  | cons c cs ih =>
    rw [List.flatMap_cons]
    rcases Nat.lt_or_ge c.toNat 0x10000 with hsmall | hlarge
    · rw [charUnits_of_lt (toNat_toUInt16 hsmall)]
      exact .single (toNat_toUInt16 hsmall) ih
    · -- Ten bits are left above 65536 for each of the two surrogates.
      have hlt := toNat_lt c
      have hx : (c.toNat - 0x10000) / 0x400 < 0x400 := by omega
      have hy : (c.toNat - 0x10000) % 0x400 < 0x400 := by omega
      have hc : c.toNat = 0x10000 + 0x400 * ((c.toNat - 0x10000) / 0x400) + (c.toNat - 0x10000) % 0x400 := by
        omega
      have hhigh := toNat_toUInt16 (show 0xD800 + (c.toNat - 0x10000) / 0x400 < 2 ^ 16 by omega)
      have hlow := toNat_toUInt16 (show 0xDC00 + (c.toNat - 0x10000) % 0x400 < 2 ^ 16 by omega)
      rw [charUnits_of_surrogates hx hy hhigh hlow hc]
      exact .surrogates hx hy hhigh hlow hc ih

/-- Every text has units, and only these. -/
theorem utf16_iff {cs : List Char} {us : List UInt16} : Utf16 cs us ↔ us = cs.flatMap charUnits :=
  ⟨Utf16.eq_flatMap, fun h => h ▸ utf16_flatMap cs⟩

theorem units_append (a b : String) : units (a ++ b) = units a ++ units b := by
  rw [units, units, units, String.toList_append, List.flatMap_append]

/-! ## The polynomial -/

/-- The polynomial in 31 with the units as coefficients, the first for the highest power. -/
def polynomial (us : List UInt16) : Int :=
  ∑ i : Fin us.length, (us[i].toNat : Int) * 31 ^ (us.length - 1 - i)

theorem polynomial_cons (u : UInt16) (us : List UInt16) :
    polynomial (u :: us) = u.toNat * 31 ^ us.length + polynomial us := by
  simp only [polynomial, List.length_cons]
  rw [Fin.sum_univ_succ]
  congr 1
  apply Finset.sum_congr rfl
  intro i _
  congr 2
  simp only [Fin.val_succ]
  omega

theorem toInt_bmod_modEq (x : Int) : x.bmod (2 ^ 32) ≡ x [ZMOD 2 ^ 32] := Int.bmod_emod

theorem toInt_toInt32 (u : UInt16) : u.toUInt32.toInt32.toInt = u.toNat := by
  have hu := u.toNat_lt
  rw [← Int32.toInt_toBitVec, UInt32.toBitVec_toInt32, BitVec.toInt_eq_toNat_of_lt] <;>
    rw [UInt32.toNat_toBitVec, UInt16.toNat_toUInt32]
  omega

theorem toInt_hashStep (h : Int32) (u : UInt16) :
    (hashStep h u).toInt ≡ h.toInt * 31 + u.toNat [ZMOD 2 ^ 32] := by
  rw [hashStep, Int32.toInt_add, Int32.toInt_mul, toInt_toInt32]
  exact (toInt_bmod_modEq _).trans ((toInt_bmod_modEq _).add_right _)

/-- Further units multiply the hash so far by a power of 31, and add their own polynomial. -/
theorem toInt_foldl_hashStep (h : Int32) (us : List UInt16) :
    (us.foldl hashStep h).toInt ≡ h.toInt * 31 ^ us.length + polynomial us [ZMOD 2 ^ 32] := by
  induction us generalizing h with
  | nil => simp [polynomial]
  | cons u us ih =>
    rw [List.foldl_cons, List.length_cons, polynomial_cons]
    calc (us.foldl hashStep (hashStep h u)).toInt
        ≡ (hashStep h u).toInt * 31 ^ us.length + polynomial us [ZMOD 2 ^ 32] := ih _
      _ ≡ (h.toInt * 31 + u.toNat) * 31 ^ us.length + polynomial us [ZMOD 2 ^ 32] :=
        ((toInt_hashStep h u).mul_right _).add_right _
      _ = h.toInt * 31 ^ (us.length + 1) + (u.toNat * 31 ^ us.length + polynomial us) := by ring

/-- A 32-bit number is known from its remainder: its bounds are 2 ^ 32 apart. -/
theorem eq_of_toInt_modEq {x y : Int32} (h : x.toInt ≡ y.toInt [ZMOD 2 ^ 32]) : x = y := by
  have := x.le_toInt
  have := x.toInt_lt
  have := y.le_toInt
  have := y.toInt_lt
  unfold Int.ModEq at h
  exact Int32.toInt_inj.mp (by omega)

/-! ## Hashes -/

theorem toInt_hash (s : String) : (hash s).toInt ≡ polynomial (units s) [ZMOD 2 ^ 32] := by
  simpa [hash] using toInt_foldl_hashStep 0 (units s)

theorem hash_append (a b : String) : hash (a ++ b) = (units b).foldl hashStep (hash a) := by
  rw [hash, units_append, List.foldl_append, hash]

theorem toInt_hash_append (a b : String) :
    (hash (a ++ b)).toInt ≡ (hash a).toInt * 31 ^ (units b).length + (hash b).toInt [ZMOD 2 ^ 32] := by
  rw [hash_append]
  exact (toInt_foldl_hashStep _ _).trans ((toInt_hash b).symm.add_left _)

/-! ## The law -/

/-- The hash of a text is the one 32-bit number that is, modulo 2 ^ 32, the polynomial in
31 over its units. So the hash of two texts in a row is that of the first, times 31 to the
number of units of the second, plus that of the second; and two texts of one hash and of
equally many units have one hash also inside any other text. -/
theorem the_hash_is_a_polynomial_in_31 :
    (∀ (s : String) us, Utf16 s.toList us ↔ us = units s) ∧
    (∀ s x, x = hash s ↔ x.toInt ≡ polynomial (units s) [ZMOD 2 ^ 32]) ∧
    (∀ a b, (hash (a ++ b)).toInt ≡
      (hash a).toInt * 31 ^ (units b).length + (hash b).toInt [ZMOD 2 ^ 32]) ∧
    ∀ a b, (units a).length = (units b).length → hash a = hash b →
      ∀ before after, hash (before ++ a ++ after) = hash (before ++ b ++ after) := by
  refine ⟨fun s us => utf16_iff, ?_, toInt_hash_append, ?_⟩
  · intro s x
    constructor
    · rintro rfl
      exact toInt_hash s
    · intro hx
      exact eq_of_toInt_modEq (hx.trans (toInt_hash s).symm)
  · intro a b hlength hhash before after
    have hbefore : hash (before ++ a) = hash (before ++ b) := by
      apply eq_of_toInt_modEq
      calc (hash (before ++ a)).toInt
          ≡ (hash before).toInt * 31 ^ (units a).length + (hash a).toInt [ZMOD 2 ^ 32] :=
            toInt_hash_append before a
        _ = (hash before).toInt * 31 ^ (units b).length + (hash b).toInt := by rw [hlength, hhash]
        _ ≡ (hash (before ++ b)).toInt [ZMOD 2 ^ 32] := (toInt_hash_append before b).symm
    rw [hash_append (before ++ a), hash_append (before ++ b), hbefore]

example : (hash "😀").toInt = 0xD83D * 31 + 0xDE00 := by decide

/-- The law on two texts of one hash, with a character past 65536 before both. -/
theorem two_texts_collide_behind_an_emoji :
    (units "Aa").length = (units "BB").length ∧ hash "Aa" = hash "BB" ∧
      hash ("😀" ++ "Aa" ++ "!") = hash ("😀" ++ "BB" ++ "!") := by
  have hlength : (units "Aa").length = (units "BB").length := by decide
  have hhash : hash "Aa" = hash "BB" := by decide
  obtain ⟨-, -, -, hinside⟩ := the_hash_is_a_polynomial_in_31
  exact ⟨hlength, hhash, hinside "Aa" "BB" hlength hhash "😀" "!"⟩

end PatternDispatch.Text

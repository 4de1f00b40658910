-- Laws of reading a text: the word that white space stands around, the number that digits
-- denote, and words in either case of their letters.
import Mathlib.Data.List.Forall2
import Mathlib.Data.List.Induction
import Mathlib.Data.List.TakeWhile
import Mathlib.Data.Nat.Digits.Defs
import PatternDispatch.Text.Blank
import PatternDispatch.Text.Numeral

namespace PatternDispatch.Text

variable {cs word : List Char} {c d : Char} {n : Nat}

/-! ## White space around a word -/

/-- The word that is left when the white space around it is dropped. -/
structure Trims (cs word : List Char) : Prop where
  around : ∃ before after, cs = before ++ word ++ after ∧
    (∀ c ∈ before, isBlank c) ∧ ∀ c ∈ after, isBlank c
  first : ∀ c, word.head? = some c → isBlank c = false
  last : ∀ c, word.getLast? = some c → isBlank c = false

theorem head?_dropWhile {xs : List Char} {p : Char → Bool} (h : (xs.dropWhile p).head? = some c) : p c = false := by
  have hnot := List.head?_dropWhile_not p xs
  rw [h] at hnot
  exact hnot

theorem dropWhile_before {p : Char → Bool} {before xs : List Char} (hbefore : ∀ c ∈ before, p c)
    (hxs : ∀ c, xs.head? = some c → p c = false) : (before ++ xs).dropWhile p = xs := by
  rw [List.dropWhile_append_of_pos hbefore]
  cases xs with
  | nil => rfl
  | cons x xs => rw [List.dropWhile_cons_of_neg (by simp [hxs x rfl])]

theorem trims_trimmed (cs : List Char) : Trims cs (trimmed cs) := by
  have hsplit : cs.dropWhile isBlank =
      trimmed cs ++ ((cs.dropWhile isBlank).reverse.takeWhile isBlank).reverse := by
    rw [trimmed, ← List.reverse_append, List.takeWhile_append_dropWhile, List.reverse_reverse]
  refine ⟨⟨cs.takeWhile isBlank, ((cs.dropWhile isBlank).reverse.takeWhile isBlank).reverse, ?_, ?_, ?_⟩,
    ?_, ?_⟩
  · rw [List.append_assoc, ← hsplit, List.takeWhile_append_dropWhile]
  · exact fun c => List.mem_takeWhile_imp
  · intro c hc
    exact List.mem_takeWhile_imp (List.mem_reverse.mp hc)
  · intro c hc
    have hhead : (cs.dropWhile isBlank).head? = some c := by
      rw [hsplit, List.head?_append, hc]
      rfl
    exact head?_dropWhile hhead
  · intro c hc
    rw [trimmed, List.getLast?_reverse] at hc
    exact head?_dropWhile hc

theorem Trims.eq_trimmed (h : Trims cs word) : word = trimmed cs := by
  obtain ⟨⟨before, after, rfl, hbefore, hafter⟩, hfirst, hlast⟩ := h
  cases word with
  | nil =>
    have hnone : (before ++ [] ++ after).dropWhile isBlank = [] := by
      rw [List.append_nil, ← List.append_nil (before ++ after)]
      exact dropWhile_before (List.forall_mem_append.mpr ⟨hbefore, hafter⟩) (by simp)
    rw [trimmed, hnone]
    rfl
  | cons x xs =>
    have hlast : ∀ c, (x :: xs).reverse.head? = some c → isBlank c = false := by
      rwa [List.head?_reverse]
    rw [trimmed, List.append_assoc, dropWhile_before hbefore (by simpa using hfirst), List.reverse_append,
      dropWhile_before (by simpa using hafter) hlast, List.reverse_reverse]

/-! ## Numbers -/

/-- Decimal digits, at least one, and the number that they denote, the first digit for the
highest power of ten. -/
def Digits (cs : List Char) (n : Nat) : Prop :=
  ∃ ds : List Nat, ds ≠ [] ∧ (∀ d ∈ ds, d < 10) ∧ cs = ds.map Nat.digitChar ∧ n = Nat.ofDigits 10 ds.reverse

/-- Decimal digits, with or without a plus sign in front. -/
inductive Numeral : List Char → Nat → Prop
  | plain {cs : List Char} {n : Nat} : Digits cs n → Numeral cs n
  | plus {cs : List Char} {n : Nat} : Digits cs n → Numeral ('+' :: cs) n

theorem digit_of_isDigit (h : c.isDigit) : ∃ d < 10, Nat.digitChar d = c := by
  have hrange := Char.isDigit_iff_toNat.mp h
  simp only [Char.reduceToNat] at hrange
  have hlt : c.toNat - 48 < 10 := by omega
  refine ⟨c.toNat - 48, hlt, Char.toNat_inj.mp ?_⟩
  rw [Nat.toNat_digitChar_of_lt_ten hlt]
  omega

theorem digits_of_isDigit (h : cs.all Char.isDigit) :
    ∃ ds : List Nat, (∀ d ∈ ds, d < 10) ∧ cs = ds.map Nat.digitChar := by
  induction cs with
  | nil => exact ⟨[], by simp, rfl⟩
  | cons c cs ih =>
    rw [List.all_cons, Bool.and_eq_true] at h
    obtain ⟨d, hd, rfl⟩ := digit_of_isDigit h.1
    obtain ⟨ds, hds, rfl⟩ := ih h.2
    exact ⟨d :: ds, List.forall_mem_cons.mpr ⟨hd, hds⟩, rfl⟩

theorem foldl_digitChar {ds : List Nat} (hds : ∀ d ∈ ds, d < 10) :
    (ds.map Nat.digitChar).foldl (fun n c => 10 * n + (c.toNat - '0'.toNat)) 0 = Nat.ofDigits 10 ds.reverse := by
  -- From the end: the last digit is the one that the fold adds last.
  induction ds using List.reverseRecOn with
  | nil => rfl
  | append_singleton ds d ih =>
    obtain ⟨hds, hd⟩ := List.forall_mem_append.mp hds
    rw [List.map_append, List.foldl_append, ih hds, List.reverse_append]
    simp only [List.map_cons, List.map_nil, List.foldl_cons, List.foldl_nil, List.reverse_singleton,
      List.singleton_append, Nat.ofDigits_cons, Nat.toNat_digitChar_of_lt_ten (hd d (by simp))]
    simp [Nat.add_comm]

theorem digits?_eq_some_iff : digits? cs = some n ↔ Digits cs n := by
  unfold digits?
  constructor
  · intro h
    split at h
    · rename_i hcs
      obtain ⟨ds, hds, rfl⟩ := digits_of_isDigit hcs.2
      rw [foldl_digitChar hds, Option.some.injEq] at h
      exact ⟨ds, by simpa using hcs.1, hds, rfl, h.symm⟩
    · cases h
  · rintro ⟨ds, hne, hds, rfl, rfl⟩
    have hall : (ds.map Nat.digitChar).all Char.isDigit := by
      simpa using hds
    rw [if_pos ⟨by simpa using hne, hall⟩, foldl_digitChar hds]

theorem natural?_eq_some_iff : natural? cs = some n ↔ Numeral cs n := by
  constructor
  · intro h
    unfold natural? at h
    split at h
    · exact .plus (digits?_eq_some_iff.mp h)
    · exact .plain (digits?_eq_some_iff.mp h)
  · rintro (h | h)
    · have hdigits := digits?_eq_some_iff.mpr h
      unfold natural?
      split
      · -- A plus sign is no digit.
        simp [digits?] at hdigits
      · exact hdigits
    · exact digits?_eq_some_iff.mpr h

theorem word?_eq_some_iff : word? cs = some n ↔ Numeral cs n ∧ n < 2 ^ 64 := by
  rw [word?, Option.filter_eq_some_iff, natural?_eq_some_iff, decide_eq_true_eq]
  rfl

/-! ## Words in either case -/

/-- One character, or the two cases of one letter of ASCII. -/
def SameLetter (c d : Char) : Prop :=
  c = d ∨ (c.isUpper ∧ d.toNat = c.toNat + 32) ∨ (d.isUpper ∧ c.toNat = d.toNat + 32)

def Spells (cs : List Char) (word : String) : Prop := List.Forall₂ SameLetter cs word.toList

theorem isUpper_iff : c.isUpper ↔ 65 ≤ c.toNat ∧ c.toNat ≤ 90 := decide_eq_true_iff

theorem toNat_toLower (c : Char) : c.toLower.toNat = if c.isUpper then c.toNat + 32 else c.toNat := by
  split
  · rename_i h
    have hle := (isUpper_iff.mp h).2
    have hlower : c.toLower.val = c.val + ('a'.val - 'A'.val) :=
      congrArg Char.val (dif_pos (decide_eq_true_iff.mp h))
    have hadd : (c.val + ('a'.val - 'A'.val)).toNat = (c.toNat + 32) % 2 ^ 32 := UInt32.toNat_add _ _
    rw [Nat.mod_eq_of_lt (by omega), ← hlower] at hadd
    exact hadd
  · rename_i h
    exact congrArg Char.toNat (dif_neg fun hrange => h (decide_eq_true_iff.mpr hrange))

theorem sameLetter_iff : SameLetter c d ↔ c.toLower = d.toLower := by
  rw [SameLetter, ← Char.toNat_inj, ← Char.toNat_inj, toNat_toLower, toNat_toLower]
  simp only [isUpper_iff]
  split <;> split <;> omega

/-- A word without capitals is spelled just by what it is when folded. -/
theorem spells_iff {word : String} (h : word.toList.map Char.toLower = word.toList) :
    Spells cs word ↔ String.ofList (cs.map Char.toLower) = word := by
  have hsame : SameLetter = fun c d => c.toLower = d.toLower := by
    funext c d
    exact propext sameLetter_iff
  calc Spells cs word
      ↔ List.Forall₂ (· = ·) (cs.map Char.toLower) (word.toList.map Char.toLower) := by
        rw [Spells, hsame, List.forall₂_map_left_iff, List.forall₂_map_right_iff]
    _ ↔ cs.map Char.toLower = word.toList := by rw [List.forall₂_eq_eq_eq, h]
    _ ↔ String.ofList (cs.map Char.toLower) = word := by rw [← String.toList_inj, String.toList_ofList]

theorem mem_words_iff {words : List String} (h : ∀ word ∈ words, word.toList.map Char.toLower = word.toList) :
    String.ofList (cs.map Char.toLower) ∈ words ↔ ∃ word ∈ words, Spells cs word := by
  constructor
  · intro hmem
    exact ⟨_, hmem, (spells_iff (h _ hmem)).mpr rfl⟩
  · rintro ⟨word, hmem, hspells⟩
    rw [(spells_iff (h word hmem)).mp hspells]
    exact hmem

end PatternDispatch.Text

-- The laws of sorted tables: what a binary search over ascending keys reports, labels
-- arranged by key with their positions, and which answers are right for labels that
-- are told apart by keys.
import Mathlib.Data.List.Chain
import PatternDispatch.Proofs.Switch.Index
import PatternDispatch.Switch.Search
import PatternDispatch.Value

namespace PatternDispatch.Switch

variable {α κ : Type} {keys : Array Int} {key : Int} {lo hi i : Nat}

/-! ## What a search reports -/

/-- A report on a key: any position of it, or nothing if there is none. -/
inductive Reports (keys : Array Int) (key : Int) : Option Nat → Prop
  | hit {i : Nat} : keys[i]? = some key → Reports keys key (some i)
  | miss : key ∉ keys → Reports keys key none

theorem searchIn_some {bound : hi ≤ keys.size} (h : searchIn keys key lo hi bound = some i) :
    keys[i]? = some key := by
  fun_induction searchIn keys key lo hi bound with
  | case1 lo hi bound hlt mid hmid heq =>
    rw [← Option.some.inj h, Array.getElem?_eq_getElem hmid, heq]
  | case2 lo hi bound hlt mid hmid hne hless ih => exact ih h
  | case3 lo hi bound hlt mid hmid hne hless ih => exact ih h
  | case4 => cases h

theorem getElem_le_getElem (hkeys : keys.toList.Pairwise (· ≤ ·)) {m n : Nat} (hmn : m ≤ n)
    (hn : n < keys.size) : keys[m] ≤ keys[n] := by
  rcases Nat.eq_or_lt_of_le hmn with rfl | hmn
  · exact Int.le_refl _
  · have h := List.pairwise_iff_getElem.mp hkeys m n (by simp; omega) (by simpa using hn) hmn
    rwa [Array.getElem_toList, Array.getElem_toList] at h

/-- Equal keys stand side by side. -/
theorem getElem?_between (hkeys : keys.toList.Pairwise (· ≤ ·)) {j k : Nat} (hi : keys[i]? = some key)
    (hk : keys[k]? = some key) (hij : i ≤ j) (hjk : j ≤ k) : keys[j]? = some key := by
  obtain ⟨hilt, hi⟩ := Array.getElem?_eq_some_iff.mp hi
  obtain ⟨hklt, hk⟩ := Array.getElem?_eq_some_iff.mp hk
  have hjlt : j < keys.size := by omega
  have hle := getElem_le_getElem hkeys hij hjlt
  have hge := getElem_le_getElem hkeys hjk hklt
  rw [Array.getElem?_eq_getElem hjlt]
  exact congrArg some (by omega)

/-- A search that fails has ruled out every position of its window. -/
theorem searchIn_none {bound : hi ≤ keys.size} (hkeys : keys.toList.Pairwise (· ≤ ·))
    (h : searchIn keys key lo hi bound = none) (hlo : lo ≤ i) (hhi : i < hi) : keys[i]? ≠ some key := by
  fun_induction searchIn keys key lo hi bound with
  | case1 => cases h
  | case2 lo hi bound hlt mid hmid hne hless ih =>
    intro hi
    obtain ⟨hsize, hkey⟩ := Array.getElem?_eq_some_iff.mp hi
    -- Up to the middle, all keys are smaller.
    have hmi : mid < i := by
      by_contra hle
      have := getElem_le_getElem hkeys (Nat.le_of_not_lt hle) hmid
      omega
    exact ih h hmi hhi hi
  | case3 lo hi bound hlt mid hmid hne hless ih =>
    intro hi
    obtain ⟨hsize, hkey⟩ := Array.getElem?_eq_some_iff.mp hi
    -- From the middle on, all keys are larger.
    have him : i < mid := by
      by_contra hle
      have := getElem_le_getElem hkeys (Nat.le_of_not_lt hle) hsize
      omega
    exact ih h hlo him hi
  | case4 => omega

theorem search_reports (hkeys : keys.toList.Pairwise (· ≤ ·)) (key : Int) :
    Reports keys key (search keys key) := by
  unfold search
  cases h : searchIn keys key 0 keys.size (Nat.le_refl _) with
  | some i => exact .hit (searchIn_some h)
  | none =>
    apply Reports.miss
    intro hmem
    obtain ⟨i, hi⟩ := Array.mem_iff_getElem?.mp hmem
    have hlt := (Array.getElem?_eq_some_iff.mp hi).1
    exact searchIn_none hkeys h (Nat.zero_le i) hlt hi

/-! ## Entries by ascending key -/

/-- The entries with their positions, by ascending key. -/
structure Arranged (key : α → Int) (xs : List α) (order : List (α × Nat)) : Prop where
  perm : order.Perm xs.zipIdx
  ascending : (order.map (key ·.1)).Pairwise (· ≤ ·)

theorem arranged_mergeSort (key : α → Int) (xs : List α) :
    Arranged key xs (xs.zipIdx.mergeSort fun a b => key a.1 ≤ key b.1) := by
  refine ⟨List.mergeSort_perm _ _, ?_⟩
  rw [List.pairwise_map]
  apply (List.pairwise_mergeSort _ _ _).imp
  · intro a b h
    simpa using h
  · intro a b c hab hbc
    simp only [decide_eq_true_eq] at *
    omega
  · intro a b
    simp only [Bool.or_eq_true, decide_eq_true_eq]
    omega

theorem Arranged.mem_iff {k : α → Int} {xs : List α} {order : List (α × Nat)} (h : Arranged k xs order) {x : α} :
    (x, i) ∈ order ↔ xs[i]? = some x := by
  rw [h.perm.mem_iff, List.mk_mem_zipIdx_iff_getElem?]

theorem Arranged.map_fst_perm {k : α → Int} {xs : List α} {order : List (α × Nat)} (h : Arranged k xs order) :
    (order.map (·.1)).Perm xs := by
  have hperm := h.perm.map (·.1)
  rwa [List.zipIdx_map_fst] at hperm

/-- Ascending keys are distinct when no two neighbours are equal. -/
theorem nodup_iff_isChain {ks : List Int} (h : ks.Pairwise (· ≤ ·)) : ks.Nodup ↔ ks.IsChain (· ≠ ·) := by
  refine ⟨List.Pairwise.isChain, ?_⟩
  intro hchain
  induction ks with
  | nil => exact List.nodup_nil
  | cons a ks ih =>
    obtain ⟨ha, hks⟩ := List.pairwise_cons.mp h
    rw [List.isChain_cons] at hchain
    refine List.nodup_cons.mpr ⟨?_, ih hks hchain.2⟩
    intro hmem
    rcases ks with _ | ⟨b, ks⟩
    · cases hmem
    · have hab : a ≠ b := hchain.1 b rfl
      have hle : a ≤ b := ha b List.mem_cons_self
      rcases List.mem_cons.mp hmem with rfl | hmem
      · exact hab rfl
      · have := (List.pairwise_cons.mp hks).1 a hmem
        omega

/-! ## Labels told apart by keys -/

/-- The answer for a target: -1 for null, the position of the label with the key of the
target, and the number of labels if the target has no key or no label has it. -/
inductive AnswersByKey (key? : Value → Option κ) (labels : List Value) : Value → Int → Prop
  | null : AnswersByKey key? labels .null (-1)
  | label {v label : Value} {i : Nat} {key : κ} :
    labels[i]? = some label → key? label = some key → key? v = some key → AnswersByKey key? labels v i
  | miss {v : Value} :
    v ≠ .null → (∀ label ∈ labels, ∀ key, key? label = some key → key? v ≠ some key) →
    AnswersByKey key? labels v labels.length

/-- With distinct keys, the answer is a position just when the target has the key there. -/
theorem AnswersByKey.eq_iff {key? : Value → Option κ} {labels : List Value} {v label : Value} {n : Int} {k : κ}
    (h : AnswersByKey key? labels v n) (hnull : key? .null = none) (hkeys : (labels.map key?).Nodup)
    (hi : labels[i]? = some label) (hk : key? label = some k) : n = i ↔ key? v = some k := by
  cases h with
  | null => simp [hnull]
  | @label v label' j k' hj hk' hv =>
    rw [hv, Int.natCast_inj]
    refine ⟨?_, ?_⟩
    · rintro rfl
      rw [hi] at hj
      cases hj
      rw [← hk', hk]
    · intro hkk
      have hsame : (labels.map key?)[j]? = (labels.map key?)[i]? := by
        rw [List.getElem?_map, List.getElem?_map, hi, hj, Option.map_some, Option.map_some, hk, hk', hkk]
      have hlt : j < (labels.map key?).length := by
        rw [List.length_map]
        exact (List.getElem?_eq_some_iff.mp hj).1
      exact (List.getElem?_inj hlt hkeys).mp hsame
  | miss hv hmiss =>
    have hlt := (List.getElem?_eq_some_iff.mp hi).1
    refine iff_of_false (by omega) ?_
    exact hmiss label (List.mem_of_getElem? hi) k hk

variable [DecidableEq κ] {cases : List κ} {k : κ}

theorem idxOf?_of_nodup (hcases : cases.Nodup) (hi : cases[i]? = some k) : cases.idxOf? k = some i := by
  obtain ⟨hlt, rfl⟩ := List.getElem?_eq_some_iff.mp hi
  refine List.idxOf?_eq_some_iff.mpr ⟨hlt, rfl, ?_⟩
  intro j hj heq
  exact List.pairwise_iff_getElem.mp hcases j i (by omega) hlt hj heq

/-- A scan for the first position of the key answers right. -/
theorem answersByKey_scan {key? : Value → Option κ} {labels : List Value}
    (hcases : labels.map key? = cases.map some) (hcount : cases.length < 2 ^ 31) (v : Value) :
    AnswersByKey key? labels v
      (if v.isNull then nullIndex else indexOr cases.length ((key? v).bind (cases.idxOf? ·))).toInt := by
  have hlen : labels.length = cases.length := by simpa using congrArg List.length hcases
  have hkey : ∀ (i : Nat) label, labels[i]? = some label → key? label = cases[i]? := by
    intro i label hi
    have h := congrArg (·[i]?) hcases
    simp only [List.getElem?_map, hi, Option.map_some] at h
    cases hc : cases[i]? <;> simp_all
  by_cases hv : v = .null
  · subst hv
    exact .null
  rw [if_neg (mt Value.isNull_iff.mp hv)]
  cases hfound : (key? v).bind (cases.idxOf? ·) with
  | some i =>
    obtain ⟨k, hk, hi⟩ := Option.bind_eq_some_iff.mp hfound
    obtain ⟨hlt, hcase, -⟩ := List.idxOf?_eq_some_iff.mp hi
    have hlabel := List.getElem?_eq_getElem (hlen ▸ hlt)
    rw [indexOr, toInt_caseIndex (by omega)]
    apply AnswersByKey.label hlabel _ hk
    rw [hkey i _ hlabel, List.getElem?_eq_getElem hlt, hcase]
  | none =>
    rw [indexOr, toInt_caseIndex hcount, ← hlen]
    apply AnswersByKey.miss hv
    intro label hmem k hk hvk
    obtain ⟨i, hi⟩ := List.mem_iff_getElem?.mp hmem
    have hcase : k ∈ cases := List.mem_iff_getElem?.mpr ⟨i, by rw [← hkey i label hi, hk]⟩
    rw [hvk, Option.bind_some, List.idxOf?_eq_none_iff] at hfound
    exact hfound hcase

end PatternDispatch.Switch

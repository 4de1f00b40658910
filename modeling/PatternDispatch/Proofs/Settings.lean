-- The law of the settings. Each is what its own variable asks for: a number up to the largest
-- limit, one of four words for yes or one of four for no; and a variable that is not set,
-- or asks for nothing of the kind, leaves the default.
import PatternDispatch.Proofs.Text.Reading
import PatternDispatch.Settings

namespace PatternDispatch.Settings

open Text (Trims Numeral Spells trimmed)

variable {raw : String} {n : Nat}

/-! ## What a variable asks for -/

/-- The limit for what the variable holds. A number may have any length. -/
inductive LimitAsked : Option String → Nat → Prop
  | unset : LimitAsked none 32
  | number {raw : String} {word : List Char} {n : Nat} :
    Trims raw.toList word → Numeral word n → LimitAsked (some raw) (min 32 n)
  | other {raw : String} {word : List Char} :
    Trims raw.toList word → (∀ n, ¬ Numeral word n) → LimitAsked (some raw) 32

def yesWords : List String := ["1", "true", "yes", "on"]
def noWords : List String := ["0", "false", "no", "off"]

/-- Whether call sites relink, for what the variable holds. -/
inductive RelinkAsked : Option String → Bool → Prop
  | unset : RelinkAsked none true
  | yes {raw word : String} {spelled : List Char} :
    Trims raw.toList spelled → word ∈ yesWords → Spells spelled word → RelinkAsked (some raw) true
  | no {raw word : String} {spelled : List Char} :
    Trims raw.toList spelled → word ∈ noWords → Spells spelled word → RelinkAsked (some raw) false
  | other {raw : String} {spelled : List Char} :
    Trims raw.toList spelled → (∀ word ∈ yesWords ++ noWords, ¬ Spells spelled word) →
    RelinkAsked (some raw) true

/-! ## The limit -/

/-- A number past 64 bits is refused, and the default that takes its place is what the
number would be cut to. -/
theorem limit?_of_numeral (h : Numeral (trimmed raw.toList) n) : (limit? raw).getD maxLimit = min 32 n := by
  by_cases hfits : n < 2 ^ 64
  · rw [limit?, Text.word?_eq_some_iff.mpr ⟨h, hfits⟩]
    rfl
  · have hnone : Text.word? (trimmed raw.toList) = none := by
      rw [Text.word?, Text.natural?_eq_some_iff.mpr h]
      simpa [Option.filter] using hfits
    rw [limit?, hnone, Nat.min_eq_left (by omega)]
    rfl

theorem limit?_eq_none (h : ∀ n, ¬ Numeral (trimmed raw.toList) n) : limit? raw = none := by
  rw [limit?, Option.map_eq_none_iff, Option.eq_none_iff_forall_ne_some]
  intro n hn
  exact h n (Text.word?_eq_some_iff.mp hn).1

theorem limitAsked_iff {held : Option String} {limit : Nat} :
    LimitAsked held limit ↔ limit = (held.bind limit?).getD maxLimit := by
  constructor
  · intro h
    cases h with
    | unset => rfl
    | number htrims hnumeral =>
      rw [htrims.eq_trimmed] at hnumeral
      exact (limit?_of_numeral hnumeral).symm
    | other htrims hnone =>
      rw [htrims.eq_trimmed] at hnone
      rw [Option.bind_some, limit?_eq_none hnone]
      rfl
  · rintro rfl
    cases held with
    | none => exact .unset
    | some raw =>
      have htrims := Text.trims_trimmed raw.toList
      by_cases h : ∃ n, Numeral (trimmed raw.toList) n
      · obtain ⟨n, hn⟩ := h
        rw [Option.bind_some, limit?_of_numeral hn]
        exact .number htrims hn
      · rw [Option.bind_some, limit?_eq_none (not_exists.mp h)]
        exact .other htrims (not_exists.mp h)

/-! ## The flag -/

theorem yesWords_folded : ∀ word ∈ yesWords, word.toList.map Char.toLower = word.toList := by decide

theorem noWords_folded : ∀ word ∈ noWords, word.toList.map Char.toLower = word.toList := by decide

theorem flag?_of_yes (h : ∃ word ∈ yesWords, Spells (trimmed raw.toList) word) : flag? raw = some true :=
  if_pos ((Text.mem_words_iff yesWords_folded).mpr h)

theorem flag?_of_not_yes (h : ¬ ∃ word ∈ yesWords, Spells (trimmed raw.toList) word) :
    flag? raw = if String.ofList ((trimmed raw.toList).map Char.toLower) ∈ noWords then some false else none :=
  if_neg fun hmem => h ((Text.mem_words_iff yesWords_folded).mp hmem)

theorem flag?_of_no (h : ∃ word ∈ noWords, Spells (trimmed raw.toList) word) : flag? raw = some false := by
  have hno := (Text.mem_words_iff noWords_folded).mpr h
  rw [flag?_of_not_yes, if_pos hno]
  intro hyes
  have hdisjoint : ∀ word ∈ noWords, word ∉ yesWords := by decide
  exact hdisjoint _ hno ((Text.mem_words_iff yesWords_folded).mpr hyes)

theorem flag?_of_other (h : ∀ word ∈ yesWords ++ noWords, ¬ Spells (trimmed raw.toList) word) :
    flag? raw = none := by
  obtain ⟨hyes, hno⟩ := List.forall_mem_append.mp h
  rw [flag?_of_not_yes, if_neg]
  · rw [Text.mem_words_iff noWords_folded]
    rintro ⟨word, hmem, hspells⟩
    exact hno word hmem hspells
  · rintro ⟨word, hmem, hspells⟩
    exact hyes word hmem hspells

theorem relinkAsked_iff {held : Option String} {relink : Bool} :
    RelinkAsked held relink ↔ relink = (held.bind flag?).getD true := by
  constructor
  · intro h
    cases h with
    | unset => rfl
    | yes htrims hmem hspells =>
      rw [htrims.eq_trimmed] at hspells
      rw [Option.bind_some, flag?_of_yes ⟨_, hmem, hspells⟩]
      rfl
    | no htrims hmem hspells =>
      rw [htrims.eq_trimmed] at hspells
      rw [Option.bind_some, flag?_of_no ⟨_, hmem, hspells⟩]
      rfl
    | other htrims hnone =>
      rw [htrims.eq_trimmed] at hnone
      rw [Option.bind_some, flag?_of_other hnone]
      rfl
  · rintro rfl
    cases held with
    | none => exact .unset
    | some raw =>
      have htrims := Text.trims_trimmed raw.toList
      by_cases hyes : ∃ word ∈ yesWords, Spells (trimmed raw.toList) word
      · rw [Option.bind_some, flag?_of_yes hyes]
        obtain ⟨word, hmem, hspells⟩ := hyes
        exact .yes htrims hmem hspells
      · by_cases hno : ∃ word ∈ noWords, Spells (trimmed raw.toList) word
        · rw [Option.bind_some, flag?_of_no hno]
          obtain ⟨word, hmem, hspells⟩ := hno
          exact .no htrims hmem hspells
        · have hother : ∀ word ∈ yesWords ++ noWords, ¬ Spells (trimmed raw.toList) word := by
            intro word hmem hspells
            rcases List.mem_append.mp hmem with hmem | hmem
            · exact hyes ⟨word, hmem, hspells⟩
            · exact hno ⟨word, hmem, hspells⟩
          rw [Option.bind_some, flag?_of_other hother]
          exact .other htrims hother

/-! ## The law -/

/-- Whatever the variables hold, the limit is the number that its variable holds, cut to 32
however long the number is, and 32 without a number; call sites relink unless their
variable says no. Each of the two is found from its own variable alone. -/
theorem each_setting_is_what_its_variable_asks_for (lookup : String → Option String) :
    (∀ limit, LimitAsked (lookup "MRT_SPECIALIZE_LIMIT") limit ↔
      limit = (ofVariables lookup).specializeLimit) ∧
    (∀ relink, RelinkAsked (lookup "MRT_RELINK_CALL_SITES") relink ↔
      relink = (ofVariables lookup).relink) ∧
    ∀ other : String → Option String,
      (other "MRT_SPECIALIZE_LIMIT" = lookup "MRT_SPECIALIZE_LIMIT" →
        (ofVariables other).specializeLimit = (ofVariables lookup).specializeLimit) ∧
      (other "MRT_RELINK_CALL_SITES" = lookup "MRT_RELINK_CALL_SITES" →
        (ofVariables other).relink = (ofVariables lookup).relink) := by
  refine ⟨fun limit => limitAsked_iff, fun relink => relinkAsked_iff, fun other => ⟨?_, ?_⟩⟩
  · intro hsame
    exact limitAsked_iff.mp (hsame ▸ limitAsked_iff.mpr rfl)
  · intro hsame
    exact relinkAsked_iff.mp (hsame ▸ relinkAsked_iff.mpr rfl)

def holding (limit relink : String) : String → Option String :=
  fun name => [("MRT_SPECIALIZE_LIMIT", limit), ("MRT_RELINK_CALL_SITES", relink)].lookup name

/-- The law on a limit with a sign and a zero in front, and a flag in capitals: neither
changes when the other variable is malformed. -/
theorem a_limit_of_seven_stands_beside_a_malformed_flag :
    (ofVariables (holding " +07\n" "OFF")).specializeLimit = 7 ∧
      (ofVariables (holding " +07\n" "OFF")).relink = false ∧
      (ofVariables (holding " +07\n" "maybe")).specializeLimit = 7 ∧
      (ofVariables (holding "-3" "OFF")).relink = false := by
  obtain ⟨hlimit, hrelink, hown⟩ := each_setting_is_what_its_variable_asks_for (holding " +07\n" "OFF")
  have hseven : LimitAsked (some " +07\n") (min 32 7) :=
    .number (Text.trims_trimmed _) (.plus ⟨[0, 7], by decide, by decide, rfl, rfl⟩)
  have hspells : Spells ['O', 'F', 'F'] "off" := (Text.spells_iff (by decide)).mpr (by decide)
  have hoff : RelinkAsked (some "OFF") false := .no (Text.trims_trimmed _) (by decide) hspells
  have hlimit := (hlimit 7).mp hseven
  have hrelink := (hrelink false).mp hoff
  refine ⟨hlimit.symm, hrelink.symm, ?_, ?_⟩
  · rw [(hown (holding " +07\n" "maybe")).1 rfl, ← hlimit]
  · rw [(hown (holding "-3" "OFF")).2 rfl, ← hrelink]

end PatternDispatch.Settings

-- The law of definitions. Whatever is defined, and however often under one name, names
-- and classes belong together one to one, in the order in which the names came first;
-- and a definition tells nothing new of the classes that were there before it.
import Mathlib.Data.Set.Function
import PatternDispatch.Proofs.Naming
import PatternDispatch.Proofs.Sequence

namespace PatternDispatch.Registry

variable {r r' : Registry} {i : ClassInfo} {d : ClassDef} {ds : List ClassDef} {name : String} {c : ClassId}

/-! ## Names in the order of issue -/

/-- The names of the classes, from the first class on. -/
def names (r : Registry) : List String := (List.range r.size).map fun n => r.name (.ofIndex n)

theorem info?_of_lt (h : c.index < r.size) : ∃ i, r.info? c = some i := ⟨_, Array.getElem?_eq_getElem h⟩

theorem name_of_info? (h : r.info? c = some i) : r.name c = i.name := by
  rw [Registry.name, Registry.info, h, Option.getD_some]

theorem lt_of_info? (h : r.info? c = some i) : c.index < r.size := (Array.getElem?_eq_some_iff.mp h).1

/-- A name leads just to the issued class of that name. -/
theorem Named.lookup?_iff (h : r.Named) : r.lookup? name = some c ↔ c.index < r.size ∧ r.name c = name := by
  rw [h name c]
  constructor
  · rintro ⟨i, hi, hname⟩
    exact ⟨lt_of_info? hi, (name_of_info? hi).trans hname⟩
  · rintro ⟨hlt, hname⟩
    obtain ⟨i, hi⟩ := info?_of_lt hlt
    exact ⟨i, hi, (name_of_info? hi).symm.trans hname⟩

theorem mem_names_iff (hsize : r.size ≤ 2 ^ 32) : name ∈ r.names ↔ ∃ c, c.index < r.size ∧ r.name c = name := by
  simp only [names, List.mem_map, List.mem_range]
  constructor
  · rintro ⟨n, hn, hname⟩
    have hindex : (ClassId.ofIndex n).index = n := ClassId.index_ofIndex (Nat.lt_of_lt_of_le hn hsize)
    exact ⟨.ofIndex n, by rwa [hindex], hname⟩
  · rintro ⟨c, hc, hname⟩
    exact ⟨c.index, hc, by rwa [ClassId.ofIndex_index]⟩

theorem Named.mem_names_iff (h : r.Named) (hsize : r.size ≤ 2 ^ 32) :
    name ∈ r.names ↔ (r.lookup? name).isSome := by
  rw [Registry.mem_names_iff hsize, Option.isSome_iff_exists]
  exact exists_congr fun c => h.lookup?_iff.symm

theorem names_issue (hsize : r.size < 2 ^ 32) (i : ClassInfo) : (r.issue i).names = r.names ++ [i.name] := by
  have hold : ∀ n ∈ List.range r.size, (r.issue i).name (.ofIndex n) = r.name (.ofIndex n) := by
    intro n hn
    have hlt := List.mem_range.mp hn
    have hne : ClassId.ofIndex n ≠ .ofIndex r.size := by
      intro heq
      have hindex := congrArg ClassId.index heq
      rw [ClassId.index_ofIndex (Nat.lt_trans hlt hsize), ClassId.index_ofIndex hsize] at hindex
      omega
    rw [Registry.name, Registry.info, info?_issue hsize, if_neg hne]
    rfl
  have hnew : (r.issue i).info? (.ofIndex r.size) = some i := by rw [info?_issue hsize, if_pos rfl]
  rw [names, size_issue, List.range_succ, List.map_append, List.map_congr_left hold, List.map_singleton,
    name_of_info? hnew, names]

/-- Only a new name is added. -/
theorem Named.names_define (h : r.Named) (hsize : (r.define d).2.size ≤ 2 ^ 32) :
    (r.define d).2.names = if d.name ∈ r.names then r.names else r.names ++ [d.name] := by
  have hmem : d.name ∈ r.names ↔ _ := h.mem_names_iff (Nat.le_trans (size_le_define r d) hsize)
  cases hlookup : r.lookup? d.name with
  | some c => rw [define_of_lookup_some hlookup, if_pos (hmem.mpr (by rw [hlookup]; rfl))]
  | none =>
    have hnew : d.name ∉ r.names := by
      rw [hmem, hlookup]
      exact Bool.false_ne_true
    rw [define_of_lookup_none hlookup] at hsize ⊢
    rw [size_issue] at hsize
    rw [if_neg hnew, names_issue (by omega)]
    rfl

/-! ## Any definitions -/

theorem size_le_concat (ds : List ClassDef) (d : ClassDef) :
    (initial.defineAll ds).size ≤ (initial.defineAll (ds ++ [d])).size := by
  rw [defineAll_concat]
  exact size_le_define _ d

theorem named_defineAll (hsize : (initial.defineAll ds).size ≤ 2 ^ 32) : (initial.defineAll ds).Named := by
  induction ds using List.reverseRecOn with
  | nil => exact named_initial
  | append_singleton ds d ih =>
    have hbefore := ih (Nat.le_trans (size_le_concat ds d) hsize)
    rw [defineAll_concat] at hsize ⊢
    exact hbefore.define hsize

/-- The classes have the names that were defined, each where it came first. -/
theorem names_defineAll (hsize : (initial.defineAll ds).size ≤ 2 ^ 32) :
    (initial.defineAll ds).names = (wellKnown.map ClassInfo.name ++ ds.map ClassDef.name).eraseDups := by
  induction ds using List.reverseRecOn with
  | nil => decide
  | append_singleton ds d ih =>
    have hsize' := Nat.le_trans (size_le_concat ds d) hsize
    rw [defineAll_concat] at hsize ⊢
    rw [(named_defineAll hsize').names_define hsize, ih hsize', List.map_append, List.map_singleton,
      ← List.append_assoc, eraseDups_concat]
    simp only [List.mem_eraseDups]

theorem within_defineAll (r : Registry) (ds : List ClassDef) : r.Within (r.defineAll ds) := by
  induction ds using List.reverseRecOn with
  | nil => exact .refl r
  | append_singleton ds d ih =>
    rw [defineAll_concat]
    exact ih.trans (within_define _ d)

/-- The identities of the well-known classes. -/
def wellKnownIds : List ClassId :=
  [.object, .string, .number, .boolean, .byte, .short, .character, .integer, .long, .float, .double,
    .enumeration, .record, .carrier]

theorem info?_wellKnown : ∀ x ∈ wellKnownIds.zip wellKnown, initial.info? x.1 = some x.2 := by decide

/-! ## Classes that were there before -/

/-- All that is known of the classes of the first registry is the same in the second one. -/
structure SameBelow (r r' : Registry) : Prop where
  info : ∀ c, c.index < r.size → r'.info c = r.info c
  name : ∀ c, c.index < r.size → r'.name c = r.name c
  lookup? : ∀ name c, c.index < r.size → (r'.lookup? name = some c ↔ r.lookup? name = some c)
  ordinal? : ∀ c constant, c.index < r.size → r'.ordinal? c constant = r.ordinal? c constant

theorem Within.info_eq (h : r.Within r') (hc : c.index < r.size) : r'.info c = r.info c := by
  obtain ⟨i, hi⟩ := info?_of_lt hc
  rw [Registry.info, Registry.info, hi, h c i hi]

theorem Within.sameBelow (h : r.Within r') (hr : r.Named) (hr' : r'.Named) (hsize : r.size ≤ r'.size) :
    r.SameBelow r' := by
  have hname : ∀ c, c.index < r.size → r'.name c = r.name c := by
    intro c hc
    rw [Registry.name, Registry.name, h.info_eq hc]
  refine ⟨fun c hc => h.info_eq hc, hname, ?_, ?_⟩
  · intro name c hc
    rw [hr'.lookup?_iff, hr.lookup?_iff, hname c hc]
    simp only [hc, Nat.lt_of_lt_of_le hc hsize]
  · intro c constant hc
    rw [Registry.ordinal?, Registry.ordinal?, h.info_eq hc]

/-! ## The law -/

/-- After any definitions that leave less than a word of classes: a name leads to a
class just when the class was issued and has that name, so names and classes are in
bijection; the classes have the names in the order in which these came first, and the
well-known ones are what they were. A definition of a known name gives its class and
changes nothing, whatever else it says. One of a new name gives the next class, and
all that is known of the classes before it stays; so does subclassing among them, if
every definition names only issued classes. -/
theorem each_name_is_that_of_one_class (hsize : (initial.defineAll ds).size < 2 ^ 32) :
    let r := initial.defineAll ds
    (∀ name c, r.lookup? name = some c ↔ c.index < r.size ∧ r.name c = name) ∧
      Set.BijOn r.name {c | c.index < r.size} {name | (r.lookup? name).isSome} ∧
      r.names = (wellKnown.map ClassInfo.name ++ ds.map ClassDef.name).eraseDups ∧
      (∀ c i, (c, i) ∈ wellKnownIds.zip wellKnown → r.info c = i ∧ r.lookup? i.name = some c) ∧
      ∀ d,
        (∀ c, r.lookup? d.name = some c → r.define d = (c, r)) ∧
        (r.lookup? d.name = none →
          (r.define d).1.index = r.size ∧ r.SameBelow (r.define d).2 ∧
            (∀ name, name ≠ d.name → (r.define d).2.lookup? name = r.lookup? name) ∧
            (InOrder (ds ++ [d]) → ∀ a b, a.index < r.size → b.index < r.size →
              (r.define d).2.isSubclass a b = r.isSubclass a b)) := by
  intro r
  have hnamed : r.Named := named_defineAll (Nat.le_of_lt hsize)
  refine ⟨fun name c => hnamed.lookup?_iff, ⟨?_, ?_, ?_⟩, names_defineAll (Nat.le_of_lt hsize), ?_, ?_⟩
  · intro c hc
    exact Option.isSome_iff_exists.mpr ⟨c, hnamed.lookup?_iff.mpr ⟨hc, rfl⟩⟩
  · intro a ha b hb heq
    have hlookup := hnamed.lookup?_iff.mpr ⟨ha, heq⟩
    rw [hnamed.lookup?_iff.mpr ⟨hb, rfl⟩] at hlookup
    exact (Option.some.inj hlookup).symm
  · intro name hname
    obtain ⟨c, hc⟩ := Option.isSome_iff_exists.mp hname
    exact ⟨c, hnamed.lookup?_iff.mp hc⟩
  · intro c i hmem
    have hinfo := within_defineAll initial ds c i (info?_wellKnown _ hmem)
    refine ⟨by rw [Registry.info, hinfo, Option.getD_some], ?_⟩
    exact hnamed.lookup?_iff.mpr ⟨lt_of_info? hinfo, name_of_info? hinfo⟩
  · intro d
    refine ⟨fun c => define_of_lookup_some, ?_⟩
    intro hnew
    have hsize' : (r.define d).2.size ≤ 2 ^ 32 := by
      rw [define_of_lookup_none hnew, size_issue]
      exact hsize
    refine ⟨?_, (within_define r d).sameBelow hnamed (hnamed.define hsize') (size_le_define r d), ?_, ?_⟩
    · rw [define_of_lookup_none hnew]
      exact ClassId.index_ofIndex hsize
    · intro name hname
      have hne : d.info.name ≠ name := Ne.symm hname
      rw [define_of_lookup_none hnew, lookup?_issue, if_neg hne]
    · intro horder a b ha _
      obtain ⟨hds, hd⟩ := horder.of_concat
      exact isSubclass_define hds.grown.ordered hd (Nat.ne_of_lt ha)

/-- Two definitions of one name, with another one between them. -/
def clashing : List ClassDef :=
  [(ClassDef.named "Color").asEnum ["RED"], ClassDef.named "Pet", (ClassDef.named "Color").extending ⟨15⟩]

/-- The law on the clash: the first definition counts, and a third name is the next one. -/
theorem the_first_of_two_definitions_counts :
    (initial.defineAll clashing).size < 2 ^ 32 ∧
      (initial.defineAll clashing).names = wellKnown.map ClassInfo.name ++ ["Color", "Pet"] ∧
      (initial.defineAll clashing).lookup? "Color" = some ⟨14⟩ ∧
      ((initial.defineAll clashing).define (.named "Shape")).1.index = 16 := by
  have hsize : (initial.defineAll clashing).size < 2 ^ 32 := by decide
  obtain ⟨hlookup, -, hnames, -, hdefine⟩ := each_name_is_that_of_one_class hsize
  refine ⟨hsize, ?_, (hlookup _ _).mpr (by decide), ?_⟩
  · rw [hnames]
    decide
  · exact ((hdefine (.named "Shape")).2 (by decide)).1

end PatternDispatch.Registry

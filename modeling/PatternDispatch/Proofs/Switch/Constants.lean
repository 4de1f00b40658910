-- The laws of switches on the constants of an enumeration. No two names have one
-- ordinal, so the row holds for each declared constant the case that a scan finds.
import PatternDispatch.Proofs.Switch.Names
import PatternDispatch.Proofs.Switch.Restart
import PatternDispatch.Switch.Constants

namespace PatternDispatch

/-- The ordinal of a name leads back to the name. -/
theorem ClassInfo.getElem?_of_ordinal? {constants : List String} {name : String} {o : UInt32}
    (h : ClassInfo.ordinal? constants name = some o) : constants[o.toNat]? = some name := by
  unfold ClassInfo.ordinal? at h
  obtain ⟨i, hi, ho⟩ := Option.bind_eq_some_iff.mp h
  split at ho
  · rename_i hlt
    cases ho
    obtain ⟨hi, hname, -⟩ := List.findIdx?_eq_some_iff_getElem.mp hi
    rw [UInt32.toNat_ofNat_of_lt' hlt, List.getElem?_eq_getElem hi, eq_of_beq hname]
  · cases ho

namespace EnumTable

variable {r : Registry} {c : ClassId} {constants : List String} {labels : List Value} {t : EnumTable}
  {row : Array Int32} {cases : List (Option UInt32)} {o : UInt32} {i n : Nat}

/-! ## The row -/

/-- Cases of which no two are on one constant. -/
def Distinct (cases : List (Option UInt32)) : Prop :=
  cases.Pairwise fun a b => ∀ o, a = some o → b ≠ some o

/-- One turn of the fill: the place of the constant, if there is one, gets the index. -/
def put (row : Array Int32) : Option UInt32 × Nat → Array Int32
  | (some o, i) => row.setIfInBounds o.toNat (Switch.caseIndex i)
  | (none, _) => row

theorem fill_eq_foldl (row : Array Int32) (cases : List (Option UInt32)) :
    fill row cases = cases.zipIdx.foldl put row := by
  unfold fill
  congr 1
  funext row e
  rcases e with ⟨_ | o, i⟩ <;> rfl

theorem size_put (row : Array Int32) (e : Option UInt32 × Nat) : (put row e).size = row.size := by
  rcases e with ⟨_ | o, i⟩
  · rfl
  · exact Array.size_setIfInBounds

/-- A constant that no case is on keeps what its place holds. -/
theorem foldl_put_of_not_mem (h : some o ∉ cases) :
    ((cases.zipIdx n).foldl put row)[o.toNat]? = row[o.toNat]? := by
  induction cases generalizing row n with
  | nil => rfl
  | cons x cases ih =>
    rw [List.mem_cons, not_or] at h
    rw [List.zipIdx_cons, List.foldl_cons, ih h.2]
    cases x with
    | none => rfl
    | some p =>
      have hne : p.toNat ≠ o.toNat := fun heq => h.1 (congrArg some (UInt32.toNat_inj.mp heq).symm)
      exact Array.getElem?_setIfInBounds_ne hne

/-- The constant of case `i` gets the index of that case. -/
theorem foldl_put_of_getElem? (hdistinct : Distinct cases) (hi : cases[i]? = some (some o))
    (hlt : o.toNat < row.size) :
    ((cases.zipIdx n).foldl put row)[o.toNat]? = some (Switch.caseIndex (n + i)) := by
  induction cases generalizing row n i with
  | nil => cases hi
  | cons x cases ih =>
    obtain ⟨hfirst, hrest⟩ := List.pairwise_cons.mp hdistinct
    rw [List.zipIdx_cons, List.foldl_cons]
    cases i with
    | zero =>
      cases hi
      -- No later case is on the constant, so what is written here stays.
      rw [foldl_put_of_not_mem fun hmem => hfirst _ hmem o rfl rfl]
      exact Array.getElem?_setIfInBounds_self_of_lt hlt
    | succ i =>
      rw [ih hrest hi (by rwa [size_put])]
      congr 2
      omega

/-! ## What a table is built from -/

/-- A table for the labels: no two cases on one constant, each on a declared one, and
in the row for each declared constant the index of its case. -/
structure Built (c : ClassId) (constants : List String) (labels : List Value) (t : EnumTable) : Prop where
  cls_eq : t.cls = c
  length_eq : t.cases.length = labels.length
  count_lt : t.cases.length < 2 ^ 31
  distinct : Distinct t.cases
  declared : ∀ o, some o ∈ t.cases → o.toNat < constants.length
  row_eq : t.byOrdinal = fill (Array.replicate constants.length t.miss) t.cases

theorem distinct_ordinals {names : List String} (h : names.Nodup) :
    Distinct (names.map (ClassInfo.ordinal? constants)) := by
  refine List.pairwise_map.mpr (h.imp ?_)
  intro a b hne o ha hb
  have hname := (ClassInfo.getElem?_of_ordinal? ha).symm.trans (ClassInfo.getElem?_of_ordinal? hb)
  exact hne (Option.some.inj hname)

/-- The table of names that were read. -/
def ofNames (c : ClassId) (constants names : List String) : EnumTable :=
  let cases := names.map (ClassInfo.ordinal? constants)
  ⟨c, cases, fill (Array.replicate constants.length (Switch.caseIndex names.length)) cases⟩

/-- For an enumeration there is a table just if the labels are not too many and are names. -/
theorem ofLabels_ok_iff (hc : (r.info c).constants? = some constants) :
    ofLabels r c labels = .ok t ↔
      labels.length < 2 ^ 31 ∧ ∃ names : List String, labels = names.map .str ∧ names.Nodup ∧
        t = ofNames c constants names := by
  have henum : r.enumConstants c = .ok constants := by simp [Registry.enumConstants, hc]
  unfold ofLabels
  rw [henum]
  refine ⟨?_, ?_⟩
  · intro h
    obtain ⟨⟨⟩, hcheck, h⟩ := except_bind_ok h
    obtain ⟨_, hk, h⟩ := except_bind_ok h
    cases hk
    obtain ⟨names, hnames, h⟩ := except_bind_ok h
    cases h
    obtain ⟨rfl, hnodup, -⟩ := Switch.names_ok_iff.mp hnames
    exact ⟨Switch.checkCount_ok hcheck, names, rfl, hnodup, by simp [ofNames]⟩
  · rintro ⟨hcount, names, rfl, hnodup, rfl⟩
    rw [Switch.checkCount_of_lt hcount]
    have hnames : Switch.names r "a constant name" [] 0 (names.map .str) = .ok names :=
      Switch.names_ok_iff.mpr ⟨rfl, hnodup, by simp⟩
    simp [bind, Except.bind, hnames, ofNames, pure, Except.pure]

theorem constants_of_ofLabels (h : ofLabels r c labels = .ok t) :
    ∃ constants, (r.info c).constants? = some constants := by
  unfold ofLabels Registry.enumConstants at h
  obtain ⟨⟨⟩, -, h⟩ := except_bind_ok h
  cases hc : (r.info c).constants? with
  | none => simp [hc, bind, Except.bind] at h
  | some constants => exact ⟨constants, rfl⟩

theorem built_ofNames {names : List String} (hcount : names.length < 2 ^ 31) (hnodup : names.Nodup) :
    (ofNames c constants names).Built c constants (names.map .str) := by
  refine ⟨rfl, by simp [ofNames], by simpa [ofNames] using hcount, distinct_ordinals hnodup, ?_, ?_⟩
  · intro o ho
    obtain ⟨name, -, hname⟩ := List.mem_map.mp ho
    exact ClassInfo.ordinal?_lt hname
  · simp [ofNames, miss, labelCount]

theorem built_of_ofLabels (h : ofLabels r c labels = .ok t) :
    ∃ constants, (r.info c).constants? = some constants ∧ t.Built c constants labels := by
  obtain ⟨constants, hc⟩ := constants_of_ofLabels h
  obtain ⟨hcount, names, rfl, hnodup, rfl⟩ := (ofLabels_ok_iff hc).mp h
  rw [List.length_map] at hcount
  exact ⟨constants, hc, built_ofNames hcount hnodup⟩

theorem ofLabels_error {e : BuildError} (h : ofLabels r c labels = .error e) :
    ∃ reason, e = .invalidLabels reason := by
  unfold ofLabels at h
  rcases except_bind_error h with h | ⟨_, -, h⟩
  · exact Switch.checkCount_error h
  · rcases except_bind_error h with h | ⟨constants, -, h⟩
    · exact Registry.enumConstants_error h
    · rcases except_bind_error h with h | ⟨names, -, h⟩
      · exact Switch.names_error h
      · cases h

/-! ## The two look-ups -/

/-- The place of an ordinal in the row holds what a scan finds; past the constants
there is none, and nothing to find. -/
theorem Built.row_eq_scan (hb : t.Built c constants labels) (o : UInt32) :
    (t.byOrdinal[o.toNat]?).getD t.miss = Switch.indexOr t.labelCount (t.cases.idxOf? (some o)) := by
  rw [hb.row_eq, fill_eq_foldl]
  cases hfound : t.cases.idxOf? (some o) with
  | none =>
    rw [List.idxOf?_eq_none_iff] at hfound
    rw [foldl_put_of_not_mem hfound, Array.getElem?_replicate]
    split <;> rfl
  | some i =>
    obtain ⟨hi, hcase, -⟩ := List.findIdx?_eq_some_iff_getElem.mp hfound
    have hcase : t.cases[i]? = some (some o) := by rw [List.getElem?_eq_getElem hi, eq_of_beq hcase]
    have hlt : o.toNat < (Array.replicate constants.length t.miss).size := by
      rw [Array.size_replicate]
      exact hb.declared o (List.mem_of_getElem? hcase)
    rw [foldl_put_of_getElem? hb.distinct hcase hlt, Nat.zero_add]
    rfl

theorem Built.dispatch_eq_scan (hb : t.Built c constants labels) (v : Value) : t.dispatch v = t.scan v := by
  unfold dispatch scan
  split
  · rfl
  · cases v.ordinalIn? t.cls with
    | none => rfl
    | some o => exact hb.row_eq_scan o

/-! ## What is found -/

/-- No other case is on the constant of a case. -/
theorem idxOf?_of_distinct (hdistinct : Distinct cases) (hi : cases[i]? = some (some o)) :
    cases.idxOf? (some o) = some i := by
  obtain ⟨hlt, hcase⟩ := List.getElem?_eq_some_iff.mp hi
  refine List.idxOf?_eq_some_iff.mpr ⟨hlt, hcase, ?_⟩
  intro j hj heq
  exact List.pairwise_iff_getElem.mp hdistinct j i (by omega) hlt hj o heq hcase

/-- The constant of a case has its index. -/
theorem Built.scan_case (hb : t.Built c constants labels) (hi : t.cases[i]? = some (some o)) :
    (t.scan (.enum c o)).toInt = i := by
  have hord : (Value.enum c o).ordinalIn? t.cls = some o := Value.ordinalIn?_eq_some.mpr (by rw [hb.cls_eq])
  have hlt := (List.getElem?_eq_some_iff.mp hi).1
  have hcount := hb.count_lt
  simp only [scan, Value.isNull, Bool.false_eq_true, if_false, hord, Option.bind_some,
    idxOf?_of_distinct hb.distinct hi, Switch.indexOr]
  exact Switch.toInt_caseIndex (by omega)

/-- Whatever is not the constant of a case has the number of labels for an index. -/
theorem Built.scan_other (hb : t.Built c constants labels) {v : Value} (hv : v ≠ .null)
    (hother : ∀ o, some o ∈ t.cases → v ≠ .enum c o) : (t.scan v).toInt = labels.length := by
  have hnone : ((v.ordinalIn? t.cls).bind fun o => t.cases.idxOf? (some o)) = none := by
    rw [Option.bind_eq_none_iff]
    intro o ho
    rw [List.idxOf?_eq_none_iff]
    intro hmem
    rw [hb.cls_eq] at ho
    exact hother o hmem (Value.ordinalIn?_eq_some.mp ho)
  simp only [scan, mt Value.isNull_iff.mp hv, Bool.false_eq_true, if_false, hnone, Switch.indexOr]
  rw [← hb.length_eq]
  exact Switch.toInt_caseIndex hb.count_lt

/-! ## The law -/

/-- A table for an enumeration can be built for just the labels that are names, no two
equal, whether the enumeration has constants of these names or not; other labels are
refused as such. Look-up and scan give one answer: for the constant that a name stands for,
the position of the name; for all other targets the number of labels, and -1 for null. -/
theorem a_constant_finds_its_name (r : Registry) (c : ClassId) {constants : List String}
    (hc : (r.info c).constants? = some constants) (labels : List Value) :
    ((∃ t, ofLabels r c labels = .ok t) ↔ Switch.AllNames labels) ∧
      (∀ e, ofLabels r c labels = .error e → ∃ reason, e = .invalidLabels reason) ∧
      ∀ t, ofLabels r c labels = .ok t → (∀ v, t.dispatch v = t.scan v) ∧
        (∀ (i : Nat) name o, labels[i]? = some (.str name) → r.ordinal? c name = some o →
          (t.dispatch (.enum c o)).toInt = i) ∧
        (∀ v, v ≠ .null → (∀ name o, .str name ∈ labels → r.ordinal? c name = some o → v ≠ .enum c o) →
          (t.dispatch v).toInt = labels.length) ∧
        (t.dispatch .null).toInt = -1 := by
  have hordinal : ∀ name, r.ordinal? c name = ClassInfo.ordinal? constants name := by
    intro name
    simp [Registry.ordinal?, hc]
  refine ⟨⟨?_, ?_⟩, fun e => ofLabels_error, ?_⟩
  · rintro ⟨t, h⟩
    obtain ⟨hcount, names, hlabels, hnodup, -⟩ := (ofLabels_ok_iff hc).mp h
    exact Switch.allNames_iff.mpr ⟨hcount, names, hlabels, hnodup⟩
  · intro hnames
    obtain ⟨hcount, names, hlabels, hnodup⟩ := Switch.allNames_iff.mp hnames
    exact ⟨_, (ofLabels_ok_iff hc).mpr ⟨hcount, names, hlabels, hnodup, rfl⟩⟩
  · intro t h
    obtain ⟨hcount, names, rfl, hnodup, rfl⟩ := (ofLabels_ok_iff hc).mp h
    rw [List.length_map] at hcount
    have hb : (ofNames c constants names).Built c constants (names.map .str) := built_ofNames hcount hnodup
    have hscan := hb.dispatch_eq_scan
    refine ⟨hscan, ?_, ?_, rfl⟩
    · intro i name o hi ho
      rw [hscan]
      apply hb.scan_case
      rw [hordinal] at ho
      have hname : names[i]? = some name := by
        rw [List.getElem?_map] at hi
        obtain ⟨_, hname, hstr⟩ := Option.map_eq_some_iff.mp hi
        rw [hname, Value.str.inj hstr]
      simp [ofNames, hname, ho]
    · intro v hv hother
      rw [hscan]
      apply hb.scan_other hv
      intro o ho
      obtain ⟨name, hname, ho⟩ := List.mem_map.mp ho
      exact hother name o (List.mem_map_of_mem hname) (by rw [hordinal, ho])

/-- The registry in which `Color` is an enumeration that declares `RED` twice. -/
def twoReds : Registry := (Registry.initial.define ((ClassDef.named "Color").asEnum ["RED", "GREEN", "RED"])).2

/-- The law on the enumeration with two constants of one name: the name stands for the
first of them, and no name for the second. -/
theorem the_first_of_two_reds_is_found :
    ∃ t, ofLabels twoReds ⟨14⟩ [.str "GREEN", .str "BLUE", .str "RED"] = .ok t ∧
      (t.dispatch (.enum ⟨14⟩ 1)).toInt = 0 ∧ (t.dispatch (.enum ⟨14⟩ 0)).toInt = 2 ∧
      (t.dispatch (.enum ⟨14⟩ 2)).toInt = 3 := by
  have hc : (twoReds.info ⟨14⟩).constants? = some ["RED", "GREEN", "RED"] := rfl
  have hblue : twoReds.ordinal? ⟨14⟩ "BLUE" = none := rfl
  have hred : twoReds.ordinal? ⟨14⟩ "RED" = some 0 := rfl
  have hgreen : twoReds.ordinal? ⟨14⟩ "GREEN" = some 1 := rfl
  obtain ⟨hbuilds, -, law⟩ := a_constant_finds_its_name twoReds ⟨14⟩ hc [.str "GREEN", .str "BLUE", .str "RED"]
  obtain ⟨t, ht⟩ := hbuilds.mpr ⟨by decide, by simp, by simp⟩
  obtain ⟨-, hfound, hother, -⟩ := law t ht
  refine ⟨t, ht, hfound 0 _ _ rfl hgreen, hfound 2 _ _ rfl hred, ?_⟩
  apply hother _ Value.noConfusion
  intro name o hname ho
  rcases (by simpa using hname : name = "GREEN" ∨ name = "BLUE" ∨ name = "RED") with rfl | rfl | rfl
  · cases hgreen.symm.trans ho
    simp
  · cases hblue.symm.trans ho
  · cases hred.symm.trans ho
    simp

end EnumTable

end PatternDispatch

-- The contract of call sites. A request looks at the form of its signature, whatever
-- the labels are, then at the labels, and then makes a site of exactly that
-- signature, so the check of the finished site never fires on a switch.
import PatternDispatch.Proofs.Reachable
import PatternDispatch.Proofs.Site.Relinking

namespace PatternDispatch

/-! ## Forms of signatures -/

/-- A switch on numbers takes the scalars of its kind and their boxed classes. -/
theorem NumericKind.ofTy?_eq_some_iff {t : Ty} {kind : NumericKind} :
    ofTy? t = some kind ↔ ∃ k : Scalar, ofScalar k = kind ∧ (t = .scalar k ∨ t = .ref k.boxed) := by
  cases t with
  | scalar k => simp [ofTy?]
  | ref c =>
    have hboxed : ∀ k, Scalar.ofBoxed? c = some k ↔ c = k.boxed := by
      intro k
      constructor
      · intro h
        simpa [eq_comm] using List.find?_some h
      · rintro rfl
        exact Scalar.ofBoxed?_boxed k
    simp [ofTy?, Option.map_eq_some_iff, hboxed, and_comm]

namespace CallSite

variable {sig : Signature} {st : Store} {r : Registry}

theorem unaryParam?_eq_some_iff {param : Ty} : unaryParam? sig = some param ↔ sig = .unary param .int := by
  refine ⟨eq_unary_of_unaryParam?, ?_⟩
  rintro rfl
  simp [unaryParam?, Signature.unary]

theorem restartTarget?_eq_some_iff {target : Ty} :
    restartTarget? sig = some target ↔ sig = ⟨[target, .int], .int⟩ := by
  refine ⟨eq_of_restartTarget?, ?_⟩
  rintro rfl
  simp [restartTarget?]

theorem enumClass?_eq_some_iff {t : Ty} {c : ClassId} :
    enumClass? r t = some c ↔ t = .ref c ∧ (r.info c).constants?.isSome := by
  cases t with
  | scalar k => simp [enumClass?, Ty.class?]
  | ref d =>
    simp only [enumClass?, Ty.class?, Option.filter_eq_some_iff, Option.some.injEq, Ty.ref.injEq]

/-- A type that is an enumeration, with its class. -/
theorem bind_enumClass?_eq_some_iff {x : Option Ty} {t : Ty} {c : ClassId} :
    (x.bind fun t => (enumClass? r t).map (t, ·)) = some (t, c) ↔
      x = some t ∧ t = .ref c ∧ (r.info c).constants?.isSome := by
  simp only [Option.bind_eq_some_iff, Option.map_eq_some_iff, enumClass?_eq_some_iff, Prod.mk.injEq]
  constructor
  · rintro ⟨t', hx, c', henum, rfl, rfl⟩
    exact ⟨hx, henum⟩
  · rintro ⟨hx, henum⟩
    exact ⟨t, hx, c, henum, rfl, rfl⟩

/-! ## Sites that are always made -/

/-- The site of a handle of the signature that was asked for. -/
theorem gives_make {target : Handle} (h : target.sig = sig) :
    (make sig target).Gives fun site => site.target.sig = sig := by
  intro u
  refine ⟨⟨target⟩, u, ?_, h⟩
  simp [make, checked, h, Build.exec_bind]

theorem gives_lazy {x : Build LazySite} (hx : x.Gives fun lazy => lazy.sig = sig) :
    (do make sig (← (← x).toHandle) : Build CallSite).Gives fun site => site.target.sig = sig := by
  apply hx.bind
  intro lazy hlazy
  apply (Build.mints_handle _ _).gives.bind
  rintro target ⟨htarget, -⟩
  exact gives_make (htarget.trans hlazy)

end CallSite

theorem LazySite.gives_make (generic : Handle) (linker : Linker) :
    (make generic linker).Gives fun site => site.sig = generic.sig :=
  fun _ => ⟨_, _, rfl, rfl⟩

theorem LazySite.gives_ofTable (table : Table) (param : Ty) :
    (ofTable table param).Gives fun site => site.sig = .unary param .int := by
  apply (Build.mints_handle _ _).gives.bind
  rintro generic ⟨hgeneric, -⟩
  apply (Build.mints_handle _ _).gives.bind
  intro linked _
  rw [← hgeneric]
  exact gives_make _ _

theorem LazySite.gives_ofRestartable (target : Ty) (scan dispatch : Value → Nat → Run Int32) :
    (ofRestartable target scan dispatch).Gives fun site => site.sig = ⟨[target, .int], .int⟩ := by
  apply (Build.mints_handle _ _).gives.bind
  rintro generic ⟨hgeneric, -⟩
  apply (Build.mints_handle _ _).gives.bind
  intro linked _
  rw [← hgeneric]
  exact gives_make _ _

namespace CallSite

variable {sig : Signature} {st : Store} {request : Build CallSite} {expected : String} {form form' : Prop}
  {rejects : BuildError → Prop}

/-! ## Exact requests -/

/-- The request refuses signatures of another form, whatever the labels. For one of the
right form the table decides: its error is the error of the request, and if there is
none, the request makes a site of the signature. -/
structure Exact (request : Build CallSite) (st : Store) (sig : Signature) (expected : String) (form : Prop)
    (rejects : BuildError → Prop) : Prop where
  mismatch_iff : ∀ found text, request.Fails st (.contractMismatch found text) ↔
    ¬ form ∧ found = sig.text st.registry ∧ text = expected
  rejects_iff : form → ∀ e, request.Fails st e ↔ rejects e
  invalid : ∀ e, rejects e → ∃ reason, e = .invalidLabels reason
  made : form → (∀ e, ¬ rejects e) → ∃ site t, request.exec st = (.ok site, t) ∧ site.target.sig = sig

/-- A request in two stages: it makes a table, and then a site of the signature. -/
def Staged (request : Build CallSite) (st : Store) (sig : Signature) (rejects : BuildError → Prop) : Prop :=
  ∃ (α : Type) (table : Build α) (f : α → Build CallSite), request.exec st = (table >>= f).exec st ∧
    (∀ e, table.Fails st e ↔ rejects e) ∧ ∀ a, (f a).Gives fun site => site.target.sig = sig

/-- A request that mismatches, or goes through two stages, is exact. -/
theorem exact_of_staged (hother : ¬ form → request.exec st = (mismatch sig expected).exec st)
    (hform : form → Staged request st sig rejects)
    (hinvalid : ∀ e, rejects e → ∃ reason, e = .invalidLabels reason) :
    Exact request st sig expected form rejects := by
  have hrejects : form → ∀ e, request.Fails st e ↔ rejects e := by
    intro h e
    obtain ⟨α, table, f, hexec, htable, hf⟩ := hform h
    rw [Build.Fails, hexec, ← htable]
    exact Build.fails_bind_iff_left fun a t _ => (hf a).not_fails
  refine ⟨?_, hrejects, hinvalid, ?_⟩
  · intro found text
    by_cases h : form
    · rw [hrejects h]
      apply iff_of_false
      · intro hreject
        obtain ⟨reason, he⟩ := hinvalid _ hreject
        cases he
      · exact fun hnot => hnot.1 h
    · rw [Build.fails_of_exec ((hother h).trans (Build.exec_bind _ _ st)), and_iff_right h,
        BuildError.contractMismatch.injEq]
  · intro h hnone
    obtain ⟨α, table, f, hexec, htable, hf⟩ := hform h
    rcases hout : table.exec st with ⟨e | a, u⟩
    · exact absurd ((htable e).mp ((Build.fails_of_exec hout).mpr rfl)) (hnone e)
    · obtain ⟨site, t, hsite, hsig⟩ := hf a u
      refine ⟨site, t, ?_, hsig⟩
      rw [hexec, Build.exec_bind, hout]
      exact hsite

theorem Exact.congr (h : Exact request st sig expected form rejects) (hform : form ↔ form') :
    Exact request st sig expected form' rejects := by
  obtain rfl : form = form' := propext hform
  exact h

/-! ## Switches -/

/-- The numeric table for the kind of the parameter refuses the labels. -/
def RejectsNumbers (r : Registry) (sig : Signature) (labels : List Value) (e : BuildError) : Prop :=
  ∃ param kind, sig = .unary param .int ∧ NumericKind.ofTy? param = some kind ∧
    NumericTable.ofLabels r kind labels = .error e

theorem exact_ofNumbers (kinds : List NumericKind) (expected : String) (sig : Signature) (labels : List Value)
    (st : Store) :
    Exact (ofNumbers kinds expected sig labels) st sig expected
      (∃ param kind, sig = .unary param .int ∧ NumericKind.ofTy? param = some kind ∧ kind ∈ kinds)
      (RejectsNumbers st.registry sig labels) := by
  refine exact_of_staged ?_ ?_ ?_
  · intro hnot
    unfold ofNumbers
    cases hparam : unaryParam? sig with
    | none => rfl
    | some param =>
      cases hkind : (NumericKind.ofTy? param).filter (· ∈ kinds) with
      | none => simp only [hkind]
      | some kind =>
        obtain ⟨hkind, hmem⟩ := Option.filter_eq_some_iff.mp hkind
        exact absurd ⟨param, kind, unaryParam?_eq_some_iff.mp hparam, hkind, by simpa using hmem⟩ hnot
  · rintro ⟨param, kind, rfl, hkind, hmem⟩
    refine ⟨_, Build.ofExcept (NumericTable.ofLabels st.registry kind labels),
      fun t => ofTable (.unary param .int) (.numeric t) param, ?_, ?_,
      fun t => gives_lazy (LazySite.gives_ofTable _ _)⟩
    · have hfilter : (NumericKind.ofTy? param).filter (· ∈ kinds) = some kind := by simp [hkind, hmem]
      have hparam : unaryParam? (.unary param .int) = some param := unaryParam?_eq_some_iff.mpr rfl
      simp only [ofNumbers, hparam, hfilter]
      rw [Build.exec_bind, Build.exec_registry]
    · intro e
      rw [Build.fails_ofExcept_iff]
      simp [RejectsNumbers, Signature.unary, hkind]
  · rintro e ⟨param, kind, -, -, h⟩
    exact NumericTable.ofLabels_error h

theorem exact_ofStrings (hasher : String → Int32) (sig : Signature) (labels : List Value) (st : Store) :
    Exact (ofStrings hasher sig labels) st sig "(String) -> int" (sig = .unary .string .int)
      (StringTable.ofLabels st.registry hasher labels = .error ·) := by
  refine exact_of_staged ?_ ?_ fun e => StringTable.ofLabels_error
  · intro hnot
    unfold ofStrings
    rw [if_neg (mt unaryParam?_eq_some_iff.mp hnot)]
  · rintro rfl
    refine ⟨_, Build.ofExcept (StringTable.ofLabels st.registry hasher labels),
      fun t => ofTable (.unary .string .int) (.strings t) .string, ?_, fun e => Build.fails_ofExcept_iff,
      fun t => gives_lazy (LazySite.gives_ofTable _ _)⟩
    unfold ofStrings
    rw [if_pos (unaryParam?_eq_some_iff.mpr rfl), Build.exec_bind, Build.exec_registry]

/-- A request that needs an enumeration in its signature: without one it mismatches, and
with one the table over the constants decides. -/
theorem exact_of_enum {α : Type} {param? : Option Ty} {form : ClassId → Signature}
    {table : ClassId → Except BuildError α} {f : Ty → α → Build CallSite}
    (hparam : ∀ c, param? = some (.ref c) ↔ sig = form c)
    (hnone : (param?.bind fun t => (enumClass? st.registry t).map (t, ·)) = none →
      request.exec st = (mismatch sig expected).exec st)
    (hsome : ∀ t c, (param?.bind fun t => (enumClass? st.registry t).map (t, ·)) = some (t, c) →
      request.exec st = (Build.ofExcept (table c) >>= f t).exec st)
    (hinvalid : ∀ c e, table c = .error e → ∃ reason, e = .invalidLabels reason)
    (hgives : ∀ c a, sig = form c → (f (.ref c) a).Gives fun site => site.target.sig = sig) :
    Exact request st sig expected (∃ c, (st.registry.info c).constants?.isSome ∧ sig = form c)
      fun e => ∃ c, sig = form c ∧ table c = .error e := by
  refine exact_of_staged ?_ ?_ ?_
  · intro hnot
    apply hnone
    rw [Option.eq_none_iff_forall_ne_some]
    rintro ⟨t, c⟩ henum
    obtain ⟨ht, rfl, hclass⟩ := bind_enumClass?_eq_some_iff.mp henum
    exact hnot ⟨c, hclass, (hparam c).mp ht⟩
  · rintro ⟨c, hclass, hsig⟩
    have ht := (hparam c).mpr hsig
    refine ⟨α, Build.ofExcept (table c), f (.ref c),
      hsome _ c (bind_enumClass?_eq_some_iff.mpr ⟨ht, rfl, hclass⟩), ?_, fun a => hgives c a hsig⟩
    intro e
    rw [Build.fails_ofExcept_iff]
    constructor
    · intro h
      exact ⟨c, hsig, h⟩
    · rintro ⟨c', hsig', h⟩
      cases ht.symm.trans ((hparam c').mpr hsig')
      exact h
  · rintro e ⟨c, -, h⟩
    exact hinvalid c e h

theorem exact_ofConstants (sig : Signature) (labels : List Value) (st : Store) :
    Exact (ofConstants sig labels) st sig "(enum) -> int"
      (∃ c, (st.registry.info c).constants?.isSome ∧ sig = .unary (.ref c) .int)
      fun e => ∃ c, sig = .unary (.ref c) .int ∧ EnumTable.ofLabels st.registry c labels = .error e := by
  unfold ofConstants
  apply exact_of_enum (f := fun t table => ofTable sig (.constants table) t) fun c => unaryParam?_eq_some_iff
  · intro henum
    rw [Build.exec_bind, Build.exec_registry]
    simp only [henum]
  · intro t c henum
    rw [Build.exec_bind, Build.exec_registry]
    simp only [henum]
  · exact fun c e => EnumTable.ofLabels_error
  · rintro c table rfl
    exact gives_lazy (LazySite.gives_ofTable _ _)

theorem exact_ofEnumLabels (sig : Signature) (labels : List Label) (st : Store) :
    Exact (ofEnumLabels sig labels) st sig "(enum, int) -> int"
      (∃ c, (st.registry.info c).constants?.isSome ∧ sig = ⟨[.ref c, .int], .int⟩)
      fun e => ∃ c, sig = ⟨[.ref c, .int], .int⟩ ∧ EnumSwitch.ofLabels st.registry c labels = .error e := by
  unfold ofEnumLabels
  apply exact_of_enum (f := fun t table => do make sig (← (← LazySite.ofEnumSwitch t table).toHandle))
    fun c => restartTarget?_eq_some_iff
  · intro henum
    rw [Build.exec_bind, Build.exec_registry]
    simp only [henum]
  · intro t c henum
    rw [Build.exec_bind, Build.exec_registry]
    simp only [henum]
  · exact fun c e => EnumSwitch.ofLabels_error
  · rintro c table rfl
    exact gives_lazy (LazySite.gives_ofRestartable _ _ _)

theorem exact_ofTypes (sig : Signature) (labels : List Label) (st : Store) :
    Exact (ofTypes sig labels) st sig "(reference, int) -> int" (∃ c, sig = ⟨[.ref c, .int], .int⟩)
      (TypeSwitch.ofLabels labels |>.Fails st ·) := by
  refine exact_of_staged ?_ ?_ ?_
  · intro hnot
    unfold ofTypes
    cases htarget : restartTarget? sig with
    | none => rfl
    | some target =>
      cases target with
      | scalar k => rfl
      | ref c => exact absurd ⟨c, restartTarget?_eq_some_iff.mp htarget⟩ hnot
  · rintro ⟨c, rfl⟩
    refine ⟨_, TypeSwitch.ofLabels labels,
      fun t => do make ⟨[.ref c, .int], .int⟩ (← (← LazySite.ofTypeSwitch (.ref c) t).toHandle), ?_,
      fun e => Iff.rfl, fun t => gives_lazy (LazySite.gives_ofRestartable _ _ _)⟩
    unfold ofTypes
    rw [restartTarget?_eq_some_iff.mpr rfl]
    rfl
  · intro e h
    exact Switch.checkCount_error (TypeSwitch.ofLabels_fails_iff.mp h)

/-! ## Carriers -/

/-- The site of a handle of something that has to be made first. -/
theorem makes_iff {α : Type} {x : Build α} (handle : α → Handle) {P : Prop}
    (hsig : ∀ a t, x.exec st = (.ok a, t) → ((handle a).sig = sig ↔ P)) :
    (∃ site t, (do make sig (handle (← x)) : Build CallSite).exec st = (.ok site, t)) ↔
      (∃ a t, x.exec st = (.ok a, t)) ∧ P := by
  constructor
  · rintro ⟨site, t, h⟩
    obtain ⟨a, u, ha, h⟩ := Build.exec_bind_ok h
    refine ⟨⟨a, u, ha⟩, (hsig a u ha).mp ?_⟩
    unfold make at h
    rw [Build.exec_bind, Build.exec_registry] at h
    obtain ⟨hchecked, -⟩ := Build.exec_ofExcept_ok h
    unfold checked at hchecked
    split at hchecked
    · assumption
    · cases hchecked
  · rintro ⟨⟨a, u, ha⟩, hP⟩
    obtain ⟨site, t, hsite, -⟩ := gives_make ((hsig a u ha).mpr hP) u
    refine ⟨site, t, ?_⟩
    rw [Build.exec_bind, ha]
    exact hsite

theorem ofCarrier_iff (hs : st.Sound) (sig : Signature) (ts : List Ty) :
    (∃ site t, (ofCarrier sig ts).exec st = (.ok site, t)) ↔
      (∃ c t, (TypedCarrier.ofTypes ts).exec st = (.ok c, t)) ∧ sig = ⟨ts, .carrier⟩ := by
  apply makes_iff TypedCarrier.constructor
  intro c t hexec
  rw [((TypedCarrier.ofTypes_sound hs).2 c t hexec).sig_eq, eq_comm]

theorem ofCarrierComponent_iff (sig : Signature) (ts : List Ty) (i : Nat) (st : Store) :
    (∃ site t, (ofCarrierComponent sig ts i).exec st = (.ok site, t)) ↔
      (∃ h t, (TypedCarrier.componentOf ts i).exec st = (.ok h, t)) ∧
        ∃ ty, ts[i]? = some ty ∧ sig = .unary .carrier ty := by
  apply makes_iff id
  intro h t hexec
  obtain ⟨ty, hty, hsig⟩ := TypedCarrier.sig_of_componentOf hexec
  simp [hty, hsig, eq_comm]

end CallSite

/-! ## What switches ask for -/

namespace SwitchRequest

def sig : SwitchRequest → Signature
  | ints sig _ => sig
  | floats sig _ => sig
  | strings _ sig _ => sig
  | constants sig _ => sig
  | types sig _ => sig

/-- How the form is written in the error of a mismatch. -/
def expected : SwitchRequest → String
  | ints .. => "(int | long) -> int"
  | floats .. => "(float | double) -> int"
  | strings .. => "(String) -> int"
  | constants .. => "(enum) -> int"
  | types .. => "(reference, int) -> int"

/-- The form that the signature has to have: from one parameter to int, which is a number
of a kind that the switch is on, boxed or not, or a string, or an enumeration; or from a
reference and an int to int. -/
def Form (r : Registry) : SwitchRequest → Prop
  | ints sig _ => ∃ k : Scalar, k.isFloating = false ∧
    (sig = .unary (.scalar k) .int ∨ sig = .unary (.ref k.boxed) .int)
  | floats sig _ => ∃ k : Scalar, k.isFloating = true ∧
    (sig = .unary (.scalar k) .int ∨ sig = .unary (.ref k.boxed) .int)
  | strings _ sig _ => sig = .unary .string .int
  | constants sig _ => ∃ c, (r.info c).constants?.isSome ∧ sig = .unary (.ref c) .int
  | types sig _ => ∃ c, sig = ⟨[.ref c, .int], .int⟩

/-- The table that belongs to the signature refuses the labels with the error. -/
def Rejects (st : Store) : SwitchRequest → BuildError → Prop
  | ints sig labels => CallSite.RejectsNumbers st.registry sig labels
  | floats sig labels => CallSite.RejectsNumbers st.registry sig labels
  | strings hasher _ labels => (StringTable.ofLabels st.registry hasher labels = .error ·)
  | constants sig labels => fun e =>
    ∃ c, sig = .unary (.ref c) .int ∧ EnumTable.ofLabels st.registry c labels = .error e
  | types _ labels => (TypeSwitch.ofLabels labels).Fails st

/-- The kinds of numbers a switch is on, as scalars. -/
theorem kinds_iff {sig : Signature} {kinds : List NumericKind} {floating : Bool}
    (h : ∀ k : Scalar, NumericKind.ofScalar k ∈ kinds ↔ k.isFloating = floating) :
    (∃ param kind, sig = .unary param .int ∧ NumericKind.ofTy? param = some kind ∧ kind ∈ kinds) ↔
      ∃ k : Scalar, k.isFloating = floating ∧
        (sig = .unary (.scalar k) .int ∨ sig = .unary (.ref k.boxed) .int) := by
  constructor
  · rintro ⟨param, kind, rfl, hkind, hmem⟩
    obtain ⟨k, rfl, rfl | rfl⟩ := NumericKind.ofTy?_eq_some_iff.mp hkind
    · exact ⟨k, (h k).mp hmem, Or.inl rfl⟩
    · exact ⟨k, (h k).mp hmem, Or.inr rfl⟩
  · rintro ⟨k, hk, rfl | rfl⟩
    · exact ⟨_, _, rfl, NumericKind.ofTy?_eq_some_iff.mpr ⟨k, rfl, Or.inl rfl⟩, (h k).mpr hk⟩
    · exact ⟨_, _, rfl, NumericKind.ofTy?_eq_some_iff.mpr ⟨k, rfl, Or.inr rfl⟩, (h k).mpr hk⟩

/-- Every switch is exact over any store. -/
theorem keeps_contract (q : SwitchRequest) (st : Store) :
    CallSite.Exact q.site st q.sig q.expected (q.Form st.registry) (q.Rejects st) := by
  cases q with
  | ints sig labels =>
    exact (CallSite.exact_ofNumbers _ _ sig labels st).congr (kinds_iff fun k => by cases k <;> decide)
  | floats sig labels =>
    exact (CallSite.exact_ofNumbers _ _ sig labels st).congr (kinds_iff fun k => by cases k <;> decide)
  | strings hasher sig labels => exact CallSite.exact_ofStrings hasher sig labels st
  | constants sig labels => exact CallSite.exact_ofConstants sig labels st
  | types sig labels => exact CallSite.exact_ofTypes sig labels st

end SwitchRequest

/-! ## The law -/

/-- Every request for a switch is exact: it mismatches just if its signature is not of
the form that the switch needs, then refuses just the labels that its table refuses, and
otherwise makes a site of its signature. A request for a carrier or for one part of it
makes a site just if the carrier is given and the signature is that of the constructor,
or of the accessor. -/
theorem requests_for_sites_are_exact {st : Store} (hst : st.Reachable) :
    (∀ q : SwitchRequest, CallSite.Exact q.site st q.sig q.expected (q.Form st.registry) (q.Rejects st)) ∧
      (∀ sig labels, CallSite.Exact (CallSite.ofEnumLabels sig labels) st sig "(enum, int) -> int"
        (∃ c, (st.registry.info c).constants?.isSome ∧ sig = ⟨[.ref c, .int], .int⟩)
        fun e => ∃ c, sig = ⟨[.ref c, .int], .int⟩ ∧ EnumSwitch.ofLabels st.registry c labels = .error e) ∧
      (∀ sig ts, (∃ site t, (CallSite.ofCarrier sig ts).exec st = (.ok site, t)) ↔
        (∃ c t, (TypedCarrier.ofTypes ts).exec st = (.ok c, t)) ∧ sig = ⟨ts, .carrier⟩) ∧
      (∀ sig ts i, (∃ site t, (CallSite.ofCarrierComponent sig ts i).exec st = (.ok site, t)) ↔
        (∃ h t, (TypedCarrier.componentOf ts i).exec st = (.ok h, t)) ∧
          ∃ ty, ts[i]? = some ty ∧ sig = .unary .carrier ty) :=
  ⟨fun q => q.keeps_contract st, fun sig labels => CallSite.exact_ofEnumLabels sig labels st,
    CallSite.ofCarrier_iff hst.sound, fun sig ts i => CallSite.ofCarrierComponent_iff sig ts i st⟩

/-- The law over the well-known classes: a mismatch whatever the labels, a label that is
refused, a type switch that is made, and a carrier asked for as an object. -/
theorem four_requests_over_the_first_classes :
    let st := Store.initial []
    st.Reachable ∧
      (CallSite.ofInts (.unary .string .int) [.null]).Fails st
        (.contractMismatch "(String) -> int" "(int | long) -> int") ∧
      (CallSite.ofInts (.unary .int .int) [.null]).Fails st (.invalidLabels "null label at position 0") ∧
      (∃ site t, (CallSite.ofTypes ⟨[.object, .int], .int⟩ [.cls .string]).exec st = (.ok site, t) ∧
        site.target.sig = ⟨[.object, .int], .int⟩) ∧
      ¬ ∃ site t, (CallSite.ofCarrier ⟨[.long], .object⟩ [.long]).exec st = (.ok site, t) := by
  intro st
  have hst := Store.reachable_initial []
  obtain ⟨hswitch, -, hcarrier, -⟩ := requests_for_sites_are_exact hst
  refine ⟨hst, ?_, ?_, ?_, ?_⟩
  · apply ((hswitch (.ints (.unary .string .int) [.null])).mismatch_iff _ _).mpr
    refine ⟨?_, rfl, rfl⟩
    rintro ⟨k, -, h | h⟩ <;> cases k <;> cases h
  · apply ((hswitch (.ints (.unary .int .int) [.null])).rejects_iff ⟨.int, rfl, Or.inl rfl⟩ _).mpr
    exact ⟨.int, .int, rfl, rfl, rfl⟩
  · apply (hswitch (.types ⟨[.object, .int], .int⟩ [.cls .string])).made ⟨.object, rfl⟩
    intro e h
    cases TypeSwitch.ofLabels_fails_iff.mp h
  · rw [hcarrier]
    rintro ⟨-, h⟩
    cases h

end PatternDispatch

-- The laws of requests for carriers. Whatever was asked for before, a kept
-- carrier does what a new one would do, and the settings alone decide how the
-- parts are stored.
import PatternDispatch.Proofs.Building
import PatternDispatch.Proofs.Naming
import PatternDispatch.Proofs.Running
import PatternDispatch.Proofs.Carrier.Typed

namespace PatternDispatch

/-! ## Carriers that serve -/

/-- Constructor and accessors do for the shape what the pure model says. -/
structure CanonicalCarrier.Serves (c : CanonicalCarrier) (s : Shape) : Prop where
  constructs : c.constructor.body.run = construct s c.cls
  count : c.accessors.length = s.componentCount.toNat
  reads : ∀ (i : Nat) h, c.accessors[i]? = some h → h.Reads (readAt c.cls.isSome s i.toUInt64)

namespace CanonicalCarrier

variable {c : CanonicalCarrier} {s : Shape}

/-- It takes exactly the arguments that the kind of its carriers admits. -/
theorem Serves.takes (hc : c.Serves s) (h : s.Counts) (args : List Value) (r : Registry) (st : RunState) :
    ((c.constructor.invoke args).exec r st).1.isSome ↔ Admits s c.cls.isSome args := by
  rw [Handle.invoke, hc.constructs]
  exact construct_isSome_iff h

/-- Each accessor gives back the argument at its place. -/
theorem Serves.reads_back (hc : c.Serves s) (h : s.Counts) {args : List Value} {r : Registry} {st : RunState}
    {w : Value} (hw : ((c.constructor.invoke args).exec r st).1 = some w) {i : Nat} {reader : Handle}
    (hreader : c.accessors[i]? = some reader) (r' : Registry) (st' : RunState) :
    (reader.invoke [w]).exec r' st' = (args[i]?, st') := by
  have hi := (List.getElem?_eq_some_iff.mp hreader).1
  have hword := s.componentCount.toNat_lt
  have hnat : i.toUInt64.toNat = i := UInt64.toNat_ofNat_of_lt' (Nat.lt_trans (hc.count ▸ hi) hword)
  rw [hc.count, Shape.toNat_componentCount h] at hi
  rw [Handle.invoke, hc.constructs] at hw
  rw [hc.reads i reader hreader w, Run.exec_ofOption, readAt_construct h hw (by omega), hnat]

end CanonicalCarrier

/-- Constructor and accessors do for the types what the pure model says. The
number of types has to be a word, as it is of every list in memory. -/
structure TypedCarrier.Serves (c : TypedCarrier) (own : Bool) (ts : List Ty) : Prop where
  sig_eq : c.constructor.sig = ⟨ts, .carrier⟩
  constructs : ∃ cls, cls.isSome = own ∧ c.constructor.body.run = construct cls ts
  sigs_eq : c.accessors.map Handle.sig = ts.map (Signature.unary .carrier)
  reads : ts.length < 2 ^ 64 → ∀ (i : Nat) h, c.accessors[i]? = some h → h.Reads (readAt own ts i)

namespace Store

/-- The settings that the next request goes by. -/
def inForce (st : Store) : Settings := st.settings.getD st.environmentSettings

/-- Whether the next request gives carriers of the shape a class of their own. -/
def specializes (st : Store) (s : Shape) : Bool := s.slotCount.toNat ≤ st.inForce.specializeLimit

/-- Whether the class name of the shape is free for carriers: no class has it, or
a carrier class has it. The identities of classes are words of 32 bits, and there
is one left. -/
structure FreeFor (st : Store) (s : Shape) : Prop where
  classes_lt : st.registry.size < 2 ^ 32
  carrier : ∀ c, st.registry.lookup? s.name = some c → CanonicalCarrier.isCarrierClass (st.registry.info c)

/-- A name that no class has is free. -/
theorem freeFor_of_lookup_none {st : Store} {s : Shape} (hsize : st.registry.size < 2 ^ 32)
    (h : st.registry.lookup? s.name = none) : st.FreeFor s :=
  ⟨hsize, fun _ hc => by cases h.symm.trans hc⟩

/-- All kept carriers serve, and only carriers of a class of their own are kept,
by settings that are fixed. -/
structure Sound (st : Store) : Prop where
  shapes : ∀ s c, (s, c) ∈ st.shapes →
    c.Serves s ∧ c.cls.isSome ∧ st.settings = some st.inForce ∧ st.specializes s
  typed : ∀ ts c, (ts, c) ∈ st.typed →
    c.Serves true ts ∧ st.settings = some st.inForce ∧ st.specializes (.ofTypes ts)

theorem sound_initial (environment : List (String × String)) : (initial environment).Sound := by
  refine ⟨?_, ?_⟩
  · intro s c h
    cases h
  · intro ts c h
    cases h

/-- The carriers stay sound while classes are defined and handles run. -/
theorem Sound.of_same {st st' : Store} (h : st.Sound) (hsettings : st'.settings = st.settings)
    (henv : st'.environment = st.environment) (hshapes : st'.shapes = st.shapes)
    (htyped : st'.typed = st.typed) : st'.Sound := by
  have hforce : st'.inForce = st.inForce := by
    rw [inForce, inForce, environmentSettings, environmentSettings, hsettings, henv]
  refine ⟨?_, ?_⟩
  · intro s c hmem
    rw [hshapes] at hmem
    obtain ⟨hserves, hown, hspec⟩ := h.shapes s c hmem
    refine ⟨hserves, hown, ?_⟩
    rwa [specializes, hforce, hsettings]
  · intro ts c hmem
    rw [htyped] at hmem
    obtain ⟨hserves, hspec⟩ := h.typed ts c hmem
    refine ⟨hserves, ?_⟩
    rwa [specializes, hforce, hsettings]

/-- The store with the settings fixed to those in force. -/
def fixed (st : Store) : Store := { st with settings := some st.inForce }


theorem exec_settings_eq (st : Store) : Build.settings.exec st = (.ok st.inForce, st.fixed) := rfl

theorem Sound.fixed {st : Store} (h : st.Sound) : st.fixed.Sound := by
  refine ⟨?_, ?_⟩
  · intro s c hmem
    obtain ⟨hserves, hown, -, hlimit⟩ := h.shapes s c hmem
    exact ⟨hserves, hown, rfl, hlimit⟩
  · intro ts c hmem
    obtain ⟨hserves, -, hlimit⟩ := h.typed ts c hmem
    exact ⟨hserves, rfl, hlimit⟩

theorem Sound.keep_shape {st : Store} (h : st.Sound) {s : Shape} {c : CanonicalCarrier} (hserves : c.Serves s)
    (hcls : c.cls.isSome) (hfixed : st.settings = some st.inForce) (hspec : st.specializes s) :
    { st with shapes := (s, c) :: st.shapes }.Sound := by
  refine ⟨?_, h.typed⟩
  intro s' c' hmem
  rcases List.mem_cons.mp hmem with heq | hmem
  · cases heq
    exact ⟨hserves, hcls, hfixed, hspec⟩
  · exact h.shapes s' c' hmem

theorem Sound.keep_types {st : Store} (h : st.Sound) {ts : List Ty} {c : TypedCarrier}
    (hserves : c.Serves true ts) (hfixed : st.settings = some st.inForce) (hspec : st.specializes (.ofTypes ts)) :
    { st with typed := (ts, c) :: st.typed }.Sound := by
  refine ⟨h.shapes, ?_⟩
  intro ts' c' hmem
  rcases List.mem_cons.mp hmem with heq | hmem
  · cases heq
    exact ⟨hserves, hfixed, hspec⟩
  · exact h.typed ts' c' hmem

end Store

/-! ## Carriers in canonical order -/

namespace CanonicalCarrier

theorem maxSlots_lt_iff (s : Shape) : maxSlots < s.slotCount ↔ 254 < s.slots % 2 ^ 64 := by
  have hmax : maxSlots.toNat = 254 := rfl
  rw [UInt64.lt_iff_toNat_lt, Shape.toNat_slotCount_eq_mod, hmax]

theorem not_maxSlots_lt {s : Shape} (h : s.slots ≤ 254) : ¬ maxSlots < s.slotCount := by
  rw [maxSlots_lt_iff]
  omega

theorem mints_accessorsOf (s : Shape) (read : UInt64 → Value → Option Value) :
    (accessorsOf s read).Mints fun hs =>
      hs.length = s.componentCount.toNat ∧ ∀ (i : Nat) h, hs[i]? = some h → h.Reads (read i.toUInt64) := by
  have each : ∀ i ∈ List.range s.componentCount.toNat, (Build.unary .carrier
      (s.regionAt i.toUInt64).storage fun v => Run.ofOption (read i.toUInt64 v)).Mints
        fun h => h.Reads (read i.toUInt64) := fun i _ => (Build.mints_reader _ _ _).mono fun _ h => h.2
  apply (Build.mints_mapM each).mono
  intro hs hreads
  refine ⟨by rw [← hreads.length_eq, List.length_range], ?_⟩
  intro i h hi
  obtain ⟨j, hj, hread⟩ := getElem?_of_forall₂_right hreads hi
  obtain ⟨hlt, hj⟩ := List.getElem?_eq_some_iff.mp hj
  rw [List.getElem_range] at hj
  exact hj ▸ hread

/-- Constructor and accessors made for a shape serve it. -/
theorem mints_carrier (s : Shape) (own : Option ClassId) {read : UInt64 → Value → Option Value}
    (hread : ∀ p, read p = readAt own.isSome s p) :
    (do
      let constructor ← Build.handle (signature s) (⟨·, construct s own⟩)
      let accessors ← accessorsOf s read
      return ⟨s, own, constructor, accessors⟩ : Build CanonicalCarrier).Mints fun c =>
        c.Serves s ∧ c.cls = own := by
  apply (Build.mints_handle _ _).bind
  rintro constructor ⟨-, id, hbody⟩
  apply (mints_accessorsOf s read).bind
  rintro accessors ⟨hlen, hreads⟩
  apply Build.mints_pure
  refine ⟨⟨?_, hlen, ?_⟩, rfl⟩
  · rw [hbody]
  · intro i h hi
    rw [← hread]
    exact hreads i h hi

theorem mints_listed (s : Shape) : (listed s).Mints fun c => c.Serves s ∧ c.cls = none :=
  mints_carrier s none fun _ => rfl

variable (s : Shape) (st : Store)

/-- Whether the class that the shape is given, the one that has its name or a new
one, can stand for carriers. -/
def Admissible (r : Registry) : Prop :=
  isCarrierClass ((r.define (classDef s)).2.info (r.define (classDef s)).1)

theorem packed_ok (h : Admissible s st.registry) :
    ∃ c run, (packed s).exec st =
        (.ok c, { st with registry := (st.registry.define (classDef s)).2, run }) ∧
      c.Serves s ∧ c.cls = some (st.registry.define (classDef s)).1 := by
  obtain ⟨c, run, hexec, hc⟩ :=
    mints_carrier s (some (st.registry.define (classDef s)).1) (fun _ => rfl)
      { st with registry := (st.registry.define (classDef s)).2 }
  refine ⟨c, run, ?_, hc⟩
  rw [packed, Build.exec_bind, Build.exec_define]
  simp only
  rw [Build.exec_bind, Build.exec_registry]
  unfold Admissible at h
  simp only [if_pos h]
  exact hexec

/-- The error of a request whose class name is taken by another sort of class. -/
def nameTaken : BuildError :=
  .specializationFailed s.name "class name is already taken by a non-carrier class"

theorem packed_error (h : ¬ Admissible s st.registry) :
    (packed s).exec st =
      (.error (nameTaken s), { st with registry := (st.registry.define (classDef s)).2 }) := by
  rw [packed, Build.exec_bind, Build.exec_define]
  simp only
  rw [Build.exec_bind, Build.exec_registry]
  unfold Admissible at h
  simp only [if_neg h]
  rfl

/-- The error of a request for a shape with too many slots. -/
def tooLarge : BuildError := .arityExceeded s.name s.slotCount.toNat maxSlots.toNat

/-- What a request for a shape can do. -/
inductive Outcome : Except BuildError CanonicalCarrier × Store → Prop
  | exceeded : maxSlots < s.slotCount → Outcome (.error (tooLarge s), st)
  /-- Past the limit: parts in one row, made anew. -/
  | listed {c : CanonicalCarrier} {run : RunState} :
    ¬ maxSlots < s.slotCount → st.inForce.specializeLimit < s.slotCount.toNat →
    c.Serves s → c.cls = none → Outcome (.ok c, { st.fixed with run })
  | kept {c : CanonicalCarrier} :
    ¬ maxSlots < s.slotCount → s.slotCount.toNat ≤ st.inForce.specializeLimit →
    List.lookup s st.shapes = some c → Outcome (.ok c, st.fixed)
  /-- A class of their own, made now. -/
  | made {c : CanonicalCarrier} {run : RunState} :
    ¬ maxSlots < s.slotCount → s.slotCount.toNat ≤ st.inForce.specializeLimit →
    List.lookup s st.shapes = none → Admissible s st.registry →
    c.Serves s → c.cls = some (st.registry.define (classDef s)).1 →
    Outcome (.ok c,
      { st.fixed with registry := (st.registry.define (classDef s)).2, run, shapes := (s, c) :: st.shapes })
  /-- The name of the class is taken by another sort of class. -/
  | taken :
    ¬ maxSlots < s.slotCount → s.slotCount.toNat ≤ st.inForce.specializeLimit →
    List.lookup s st.shapes = none → ¬ Admissible s st.registry →
    Outcome (.error (nameTaken s), { st.fixed with registry := (st.registry.define (classDef s)).2 })

theorem ofShape_outcome : Outcome s st ((ofShape s).exec st) := by
  unfold ofShape
  by_cases hmax : maxSlots < s.slotCount
  · rw [if_pos hmax]
    exact .exceeded hmax
  · rw [if_neg hmax, Build.exec_bind, Store.exec_settings_eq]
    simp only
    by_cases hlimit : st.inForce.specializeLimit < s.slotCount.toNat
    · rw [if_pos hlimit]
      obtain ⟨c, run, hexec, hserves, hcls⟩ := mints_listed s st.fixed
      rw [hexec]
      exact .listed hmax hlimit hserves hcls
    · rw [if_neg hlimit, Build.exec_bind, Build.exec_get]
      have hlimit := Nat.le_of_not_lt hlimit
      simp only
      cases hkept : List.lookup s st.fixed.shapes with
      | some c => exact .kept hmax hlimit hkept
      | none =>
        simp only [Build.exec_bind]
        by_cases hcarrier : Admissible s st.registry
        · obtain ⟨c, run, hexec, hserves, hcls⟩ := packed_ok s st.fixed hcarrier
          rw [hexec]
          exact .made hmax hlimit hkept hcarrier hserves hcls
        · rw [packed_error s st.fixed hcarrier]
          exact .taken hmax hlimit hkept hcarrier

variable {s st} {r : Registry} {cls : ClassId}

theorem admissible_of_lookup_some (h : r.lookup? s.name = some cls) :
    Admissible s r ↔ isCarrierClass (r.info cls) := by
  have hdefine : r.define (classDef s) = (cls, r) := Registry.define_of_lookup_some h
  rw [Admissible, hdefine]

/-- A new class is a carrier class. -/
theorem admissible_of_lookup_none (hsize : r.size < 2 ^ 32) (h : r.lookup? s.name = none) :
    Admissible s r := by
  have hdefine : r.define (classDef s) = (.ofIndex r.size, r.issue (classDef s).info) :=
    Registry.define_of_lookup_none h
  rw [Admissible, hdefine, Registry.info, Registry.info?_issue hsize, if_pos rfl]
  rfl

/-- A class name that is free for carriers can be given to the shape. -/
theorem admissible_of_freeFor (h : st.FreeFor s) : Admissible s st.registry := by
  cases hlookup : st.registry.lookup? s.name with
  | some cls => exact (admissible_of_lookup_some hlookup).mpr (h.carrier cls hlookup)
  | none => exact admissible_of_lookup_none h.classes_lt hlookup

/-- What a sound store gives serves, and the store stays sound. -/
theorem ofShape_sound (hs : st.Sound) :
    ((ofShape s).exec st).2.Sound ∧ ∀ c t, (ofShape s).exec st = (.ok c, t) →
      c.Serves s ∧ c.cls.isSome = st.specializes s ∧
        t.settings = some st.inForce ∧ t.inForce = st.inForce := by
  have outcome := ofShape_outcome s st
  generalize (ofShape s).exec st = out at outcome
  cases outcome with
  | exceeded => exact ⟨hs, fun _ _ h => by cases h⟩
  | listed _ hlimit hserves hcls =>
    refine ⟨hs.fixed.of_same rfl rfl rfl rfl, ?_⟩
    intro c t h
    cases h
    refine ⟨hserves, ?_, rfl, rfl⟩
    rw [hcls, Store.specializes, decide_eq_false (Nat.not_le_of_lt hlimit)]
    rfl
  | kept _ hlimit hkept =>
    refine ⟨hs.fixed, ?_⟩
    intro c t h
    cases h
    obtain ⟨hserves, hcls, -⟩ := hs.shapes _ _ (mem_of_lookup hkept)
    exact ⟨hserves, hcls.trans (decide_eq_true hlimit).symm, rfl, rfl⟩
  | @made c run _ hlimit _ _ hserves hcls =>
    have hcls : c.cls.isSome := by rw [hcls]; rfl
    refine ⟨?_, ?_⟩
    · have hsame : { st.fixed with registry := (st.registry.define (classDef s)).2, run }.Sound :=
        hs.fixed.of_same rfl rfl rfl rfl
      exact hsame.keep_shape hserves hcls rfl (decide_eq_true hlimit)
    · intro c t h
      cases h
      exact ⟨hserves, hcls.trans (decide_eq_true hlimit).symm, rfl, rfl⟩
  | taken => exact ⟨hs.fixed.of_same rfl rfl rfl rfl, fun _ _ h => by cases h⟩

/-- A request with few enough slots and a free class name, if one is needed, succeeds. -/
theorem ofShape_ok (hslots : ¬ maxSlots < s.slotCount) (hname : st.specializes s → st.FreeFor s) :
    ∃ c t, (ofShape s).exec st = (.ok c, t) := by
  have outcome := ofShape_outcome s st
  generalize (ofShape s).exec st = out at outcome
  cases outcome with
  | exceeded h => exact absurd h hslots
  | listed => exact ⟨_, _, rfl⟩
  | kept => exact ⟨_, _, rfl⟩
  | made => exact ⟨_, _, rfl⟩
  | taken _ hlimit _ h => exact absurd (admissible_of_freeFor (hname (decide_eq_true hlimit))) h

/-- A request fails over too many slots, or over a class name that another sort of class has. -/
theorem ofShape_fails_iff {e : BuildError} :
    (ofShape s).Fails st e ↔
      maxSlots < s.slotCount ∧ e = tooLarge s ∨
        ¬ maxSlots < s.slotCount ∧ s.slotCount.toNat ≤ st.inForce.specializeLimit ∧
          List.lookup s st.shapes = none ∧ ¬ Admissible s st.registry ∧ e = nameTaken s := by
  have outcome := ofShape_outcome s st
  unfold Build.Fails
  generalize (ofShape s).exec st = out at outcome
  cases outcome with
  | exceeded hmax => simpa [hmax] using eq_comm
  | listed hmax hlimit => simp [hmax, Nat.not_le_of_lt hlimit]
  | kept hmax hlimit hkept => simp [hmax, hkept]
  | made hmax hlimit hnone hadmissible => simp [hmax, hadmissible]
  | taken hmax hlimit hnone htaken => simpa [hmax, hlimit, hnone, htaken] using eq_comm

end CanonicalCarrier

/-! ## Carriers in declared order -/

namespace TypedCarrier

variable {ts : List Ty} {raw : CanonicalCarrier} {st : Store}

theorem Serves.count {c : TypedCarrier} {own : Bool} (hc : c.Serves own ts) :
    c.accessors.length = ts.length := by
  have hlen := congrArg List.length hc.sigs_eq
  rwa [List.length_map, List.length_map] at hlen

/-- It takes exactly the values that fit. -/
theorem Serves.takes {c : TypedCarrier} {own : Bool} (hc : c.Serves own ts) (h : ts.length < 2 ^ 64)
    (values : List Value) (r : Registry) (s : RunState) :
    ((c.constructor.invoke values).exec r s).1.isSome ↔ Fits ts values := by
  obtain ⟨cls, -, hbody⟩ := hc.constructs
  rw [Handle.invoke, hbody]
  exact construct_isSome_iff h

/-- What it took, a reader of part `i` gives back. -/
theorem Serves.reads_back {c : TypedCarrier} {own : Bool} (hc : c.Serves own ts) (h : ts.length < 2 ^ 64)
    {values : List Value} {r : Registry} {s : RunState} {w : Value}
    (hw : ((c.constructor.invoke values).exec r s).1 = some w) {i : Nat} {reader : Handle}
    (hreader : reader.Reads (readAt own ts i)) (r' : Registry) (s' : RunState) :
    (reader.invoke [w]).exec r' s' = (values[i]?, s') := by
  obtain ⟨cls, rfl, hbody⟩ := hc.constructs
  rw [Handle.invoke, hbody] at hw
  rw [hreader w, Run.exec_ofOption, readAt_construct h hw]

theorem Serves.ne_null {c : TypedCarrier} {own : Bool} (hc : c.Serves own ts) {values : List Value}
    {r : Registry} {s : RunState} {w : Value} (hw : ((c.constructor.invoke values).exec r s).1 = some w) :
    w ≠ .null := by
  obtain ⟨cls, -, hbody⟩ := hc.constructs
  rw [Handle.invoke, hbody] at hw
  exact construct_ne_null hw

theorem Serves.words {c : TypedCarrier} {own : Bool} (hc : c.Serves own ts) {values : List Value}
    {r : Registry} {s : RunState} {w : Value} (hw : ((c.constructor.invoke values).exec r s).1 = some w) :
    ts.length < 2 ^ 64 := by
  obtain ⟨cls, -, hbody⟩ := hc.constructs
  rw [Handle.invoke, hbody] at hw
  exact words_of_construct hw

theorem mints_constructorOf (hraw : raw.Serves (.ofTypes ts)) :
    (constructorOf (.ofTypes ts) ts raw.constructor).Mints fun h =>
      h.sig = ⟨ts, .carrier⟩ ∧ h.body.run = construct raw.cls ts := by
  apply (Build.mints_handle _ _).mono
  rintro h ⟨hsig, id, hbody⟩
  refine ⟨hsig, ?_⟩
  rw [hbody]
  funext args
  simp only [Handle.invoke, hraw.constructs]
  rfl

/-- What an accessor reads at a canonical position, as a value of the type. Past the end
of the row there is nothing to read. -/
def readSlot (own : Bool) (s : Shape) (t : Ty) (p : UInt64) (w : Value) : Option Value :=
  if p.toNat < s.componentCount.toNat then readTyped own s t p w else none

/-- The handle takes one carrier, reads it by the function and runs nothing else. -/
structure ReadsBy (h : Handle) (t : Ty) (read : Value → Option Value) : Prop where
  sig_eq : h.sig = .unary .carrier t
  invoke_eq : ∀ args, h.invoke args =
    match args with
    | [v] => Run.ofOption (read v)
    | _ => Run.noMatch

/-- The handle reads part `i` of carriers for the types, and nothing of all else. -/
def ReadsPart (own : Bool) (ts : List Ty) (i : Nat) (h : Handle) : Prop :=
  ∃ t p, ts[i]? = some t ∧ (Shape.ofTypes ts).positionOf? ts i = some p ∧
    ReadsBy h t (readSlot own (.ofTypes ts) t p)

theorem mints_accessorOf {s : Shape} (hraw : raw.Serves s) (t : Ty) (p : UInt64) :
    (accessorOf t raw.accessors p).Mints fun h => ReadsBy h t (readSlot raw.cls.isSome s t p) := by
  apply (Build.mints_handle _ _).mono
  rintro h ⟨hsig, id, hbody⟩
  refine ⟨hsig, ?_⟩
  intro args
  rw [Handle.invoke, hbody]
  obtain _ | ⟨v, _ | ⟨w, rest⟩⟩ := args
  · rfl
  · simp only [Body.unary]
    by_cases hp : p.toNat < s.componentCount.toNat
    · have hread := List.getElem?_eq_getElem (hraw.count ▸ hp)
      have hv := hraw.reads _ _ hread v
      rw [Nat.toUInt64, UInt64.ofNat_toNat] at hv
      rw [readSlot, if_pos hp, readTyped, ← Run.ofOption_bind, ← hv, hread]
      rfl
    · have hnone : raw.accessors[p.toNat]? = none :=
        List.getElem?_eq_none (hraw.count ▸ Nat.le_of_not_lt hp)
      rw [readSlot, if_neg hp, hnone]
      rfl
  · rfl

theorem readAt_eq {own : Bool} {i : Nat} {t : Ty} {p : UInt64} (ht : ts[i]? = some t)
    (hp : (Shape.ofTypes ts).positionOf? ts i = some p) :
    readAt own ts i = readTyped own (.ofTypes ts) t p := by
  funext w
  rw [readAt, ht, hp]
  rfl

theorem ReadsPart.reads {own : Bool} {i : Nat} {h : Handle} (hpart : ReadsPart own ts i h)
    (hlen : ts.length < 2 ^ 64) : h.Reads (readAt own ts i) := by
  obtain ⟨t, p, ht, hp, hreads⟩ := hpart
  obtain ⟨hc, hsize⟩ := Shape.counts_ofTypes hlen
  have hlt : p.toNat < (Shape.ofTypes ts).componentCount.toNat := by
    rw [Shape.toNat_componentCount hc, hsize]
    exact (Shape.toNat_positionOf? hlen ht hp).2.2
  intro v
  simp only [hreads.invoke_eq, readSlot, if_pos hlt, readAt_eq ht hp]

theorem mints_accessors (hraw : raw.Serves (.ofTypes ts)) :
    (((Shape.ofTypes ts).positions ts).zip ts |>.mapM fun (p, t) => accessorOf t raw.accessors p).Mints fun hs =>
      hs.length = ts.length ∧ ∀ (i : Nat) h, hs[i]? = some h → ReadsPart raw.cls.isSome ts i h := by
  apply (Build.mints_mapM fun x _ => mints_accessorOf hraw x.2 x.1).mono
  intro hs hreads
  refine ⟨?_, ?_⟩
  · rw [← hreads.length_eq, List.length_zip, Shape.positions_length, Nat.min_self]
  · intro i h hi
    obtain ⟨⟨p, t⟩, hzip, hread⟩ := getElem?_of_forall₂_right hreads hi
    obtain ⟨hp, ht⟩ := List.getElem?_zip_eq_some.mp hzip
    rw [Shape.positions_getElem?] at hp
    exact ⟨t, p, ht, hp, hread⟩

/-- Readers of all parts have the signatures of the parts. -/
theorem sigs_of_readsPart {own : Bool} {hs : List Handle} (hcount : hs.length = ts.length)
    (hparts : ∀ (i : Nat) h, hs[i]? = some h → ReadsPart own ts i h) :
    hs.map Handle.sig = ts.map (Signature.unary .carrier) := by
  apply List.ext_getElem?
  intro i
  rw [List.getElem?_map, List.getElem?_map]
  cases hi : hs[i]? with
  | none =>
    rw [List.getElem?_eq_none (hcount ▸ List.getElem?_eq_none_iff.mp hi)]
    rfl
  | some h =>
    obtain ⟨t, p, ht, -, hread⟩ := hparts i h hi
    rw [ht, Option.map_some, Option.map_some, hread.sig_eq]

/-- What a request for the types can do. -/
inductive Outcome (ts : List Ty) (st : Store) : Except BuildError TypedCarrier × Store → Prop
  | kept {c : TypedCarrier} : List.lookup ts st.typed = some c → Outcome ts st (.ok c, st)
  | refused {e : BuildError} {t : Store} :
    (CanonicalCarrier.ofShape (.ofTypes ts)).exec st = (.error e, t) → Outcome ts st (.error e, t)
  /-- Made over the carrier of the shape, and kept if that one is. -/
  | made {raw : CanonicalCarrier} {t : Store} {c : TypedCarrier} {run : RunState} :
    (CanonicalCarrier.ofShape (.ofTypes ts)).exec st = (.ok raw, t) → c.Serves raw.cls.isSome ts →
    (∀ (i : Nat) h, c.accessors[i]? = some h → ReadsPart raw.cls.isSome ts i h) →
    Outcome ts st
      (.ok c, { t with run, typed := if raw.cls.isSome then (ts, c) :: t.typed else t.typed })

theorem ofTypes_outcome (ts : List Ty) (hs : st.Sound) : Outcome ts st ((ofTypes ts).exec st) := by
  unfold ofTypes
  rw [Build.exec_bind, Build.exec_get]
  simp only
  cases hkept : List.lookup ts st.typed with
  | some c => exact .kept hkept
  | none =>
    simp only [Build.exec_bind]
    rcases hraw : (CanonicalCarrier.ofShape (.ofTypes ts)).exec st with ⟨e | raw, t⟩
    · exact .refused hraw
    · obtain ⟨hserves, -⟩ := (CanonicalCarrier.ofShape_sound hs).2 raw t hraw
      obtain ⟨constructor, run, hconstructor, hsig, hbody⟩ := mints_constructorOf hserves t
      obtain ⟨accessors, run', haccessors, hcount, hparts⟩ := mints_accessors hserves { t with run }
      have serves : TypedCarrier.Serves ⟨ts, .ofTypes ts, constructor, accessors⟩ raw.cls.isSome ts :=
        ⟨hsig, ⟨raw.cls, rfl, hbody⟩, sigs_of_readsPart hcount hparts,
          fun hlen i h hi => (hparts i h hi).reads hlen⟩
      have made : Outcome ts st (.ok _, { t with run := run', typed := _ }) := .made hraw serves hparts
      simp only [hconstructor, haccessors]
      split at made <;> rename_i howned
      · rw [if_pos howned]
        exact made
      · rw [if_neg howned]
        exact made

/-- What a sound store gives for the types serves, and the store stays sound. -/
theorem ofTypes_sound (hs : st.Sound) :
    ((ofTypes ts).exec st).2.Sound ∧ ∀ c t, (ofTypes ts).exec st = (.ok c, t) →
      c.Serves (st.specializes (.ofTypes ts)) ts := by
  obtain ⟨hsound, hgives⟩ := CanonicalCarrier.ofShape_sound (s := .ofTypes ts) hs
  have outcome := ofTypes_outcome ts hs
  generalize (ofTypes ts).exec st = out at outcome
  cases outcome with
  | kept hkept =>
    refine ⟨hs, ?_⟩
    intro c t h
    cases h
    obtain ⟨hserves, -, hlimit⟩ := hs.typed _ _ (mem_of_lookup hkept)
    rwa [hlimit]
  | refused hraw =>
    rw [hraw] at hsound
    exact ⟨hsound, fun _ _ h => by cases h⟩
  | @made raw t c run hraw hserves =>
    rw [hraw] at hsound
    obtain ⟨-, hown, hfixed, hforce⟩ := hgives raw t hraw
    rw [hown] at hserves ⊢
    refine ⟨?_, ?_⟩
    · have hsame : { t with run }.Sound := hsound.of_same rfl rfl rfl rfl
      split
      · rename_i howned
        apply hsame.keep_types (howned ▸ hserves) (hfixed.trans (congrArg some hforce.symm))
        rw [Store.specializes] at howned ⊢
        rwa [hforce.symm] at howned
      · exact hsame
    · intro c' u h
      cases h
      exact hserves

/-- A request for the types fails as the one for their shape does, unless a carrier is kept. -/
theorem ofTypes_fails_iff {e : BuildError} (hs : st.Sound) :
    (ofTypes ts).Fails st e ↔
      List.lookup ts st.typed = none ∧ (CanonicalCarrier.ofShape (.ofTypes ts)).Fails st e := by
  cases hkept : List.lookup ts st.typed with
  | some c =>
    have hexec : (ofTypes ts).exec st = (.ok c, st) := by
      unfold ofTypes
      rw [Build.exec_bind, Build.exec_get]
      simp only [hkept]
      rfl
    exact iff_of_false (Build.not_fails_of_exec hexec) (by simp)
  | none =>
    rw [and_iff_right rfl]
    have outcome := ofTypes_outcome ts hs
    unfold Build.Fails
    generalize (ofTypes ts).exec st = out at outcome
    cases outcome with
    | kept h => cases hkept.symm.trans h
    | refused hraw => simp [hraw]
    | made hraw => simp [hraw]

/-- What runs left behind has no say in it. -/
theorem ofTypes_fails_run {e : BuildError} (hs : st.Sound) (run : RunState) :
    (ofTypes ts).Fails { st with run } e ↔ (ofTypes ts).Fails st e := by
  have hsame : { st with run }.Sound := hs.of_same rfl rfl rfl rfl
  rw [ofTypes_fails_iff hs, ofTypes_fails_iff hsame, CanonicalCarrier.ofShape_fails_iff,
    CanonicalCarrier.ofShape_fails_iff]
  rfl

/-- A carrier is refused for its size, or for the name of its class. -/
theorem sort_of_ofTypes_fails {e : BuildError} (hs : st.Sound) (h : (ofTypes ts).Fails st e) :
    (∃ shape slots max, e = .arityExceeded shape slots max) ∨
      ∃ shape reason, e = .specializationFailed shape reason := by
  obtain ⟨-, h⟩ := (ofTypes_fails_iff hs).mp h
  rcases CanonicalCarrier.ofShape_fails_iff.mp h with ⟨-, rfl⟩ | ⟨-, -, -, -, rfl⟩
  · exact Or.inl ⟨_, _, _, rfl⟩
  · exact Or.inr ⟨_, _, rfl⟩

/-- What a request for one part can do. -/
inductive PartOutcome (ts : List Ty) (i : Nat) (st : Store) : Except BuildError Handle × Store → Prop
  | outOfBounds : ts.length ≤ i → PartOutcome ts i st (.error (.componentOutOfBounds i ts.length), st)
  | refused {e : BuildError} {t : Store} : i < ts.length →
    (CanonicalCarrier.ofShape (.ofTypes ts)).exec st = (.error e, t) → PartOutcome ts i st (.error e, t)
  | made {raw : CanonicalCarrier} {t : Store} {h : Handle} {run : RunState} : i < ts.length →
    (CanonicalCarrier.ofShape (.ofTypes ts)).exec st = (.ok raw, t) →
    ReadsPart raw.cls.isSome ts i h → PartOutcome ts i st (.ok h, { t with run })

theorem componentOf_outcome (ts : List Ty) (i : Nat) (hs : st.Sound) :
    PartOutcome ts i st ((componentOf ts i).exec st) := by
  unfold componentOf
  simp only
  split
  · rename_i t p ht hp
    have hi := (List.getElem?_eq_some_iff.mp ht).1
    rw [Build.exec_bind]
    rcases hraw : (CanonicalCarrier.ofShape (.ofTypes ts)).exec st with ⟨e | raw, u⟩
    · exact .refused hi hraw
    · obtain ⟨hserves, -⟩ := (CanonicalCarrier.ofShape_sound hs).2 raw u hraw
      obtain ⟨h, run, hexec, hreads⟩ := mints_accessorOf hserves t p u
      simp only [hexec]
      exact .made hi hraw ⟨t, p, ht, hp, hreads⟩
  · rename_i hnone
    refine .outOfBounds (Nat.le_of_not_lt ?_)
    intro hi
    have ht := List.getElem?_eq_getElem hi
    exact hnone _ _ ht (by rw [Shape.positionOf?, ht]; rfl)

/-- The accessor of one part takes a carrier and returns the type of the part. -/
theorem sig_of_componentOf {i : Nat} {reader : Handle} {t : Store}
    (h : (componentOf ts i).exec st = (.ok reader, t)) :
    ∃ ty, ts[i]? = some ty ∧ reader.sig = .unary .carrier ty := by
  unfold componentOf at h
  simp only at h
  split at h
  · rename_i ty p hty hp
    obtain ⟨raw, u, -, h⟩ := Build.exec_bind_ok h
    cases h
    exact ⟨ty, hty, rfl⟩
  · cases h

theorem part_of_componentOf {i : Nat} {reader : Handle} {t : Store} (hs : st.Sound)
    (h : (componentOf ts i).exec st = (.ok reader, t)) :
    ReadsPart (st.specializes (.ofTypes ts)) ts i reader := by
  have outcome := componentOf_outcome ts i hs
  rw [h] at outcome
  cases outcome with
  | made _ hraw hpart =>
    obtain ⟨-, hown, -⟩ := (CanonicalCarrier.ofShape_sound hs).2 _ _ hraw
    exact hown ▸ hpart

/-- The accessor of one part reads that part, and the store stays sound. -/
theorem componentOf_sound {i : Nat} (hs : st.Sound) :
    ((componentOf ts i).exec st).2.Sound ∧ ∀ h t, (componentOf ts i).exec st = (.ok h, t) →
      ts.length < 2 ^ 64 →
        h.Reads (readAt (st.specializes (.ofTypes ts)) ts i) := by
  refine ⟨?_, fun h t hexec hlen => (part_of_componentOf hs hexec).reads hlen⟩
  obtain ⟨hsound, -⟩ := CanonicalCarrier.ofShape_sound (s := .ofTypes ts) hs
  have outcome := componentOf_outcome ts i hs
  generalize (componentOf ts i).exec st = out at outcome
  cases outcome with
  | outOfBounds => exact hs
  | refused _ hraw => rwa [hraw] at hsound
  | made _ hraw =>
    rw [hraw] at hsound
    exact hsound.of_same rfl rfl rfl rfl

theorem slots_le (h : ts.length + Shape.countIn .wide ts ≤ 254) :
    ¬ CanonicalCarrier.maxSlots < (Shape.ofTypes ts).slotCount :=
  CanonicalCarrier.not_maxSlots_lt (by rwa [Shape.slots_ofTypes (by omega)])

section Succeeds

variable (hslots : ts.length + Shape.countIn .wide ts ≤ 254) (hname : st.FreeFor (.ofTypes ts))
  (hs : st.Sound)

include hslots hname hs

theorem ofTypes_ok : ∃ c t, (ofTypes ts).exec st = (.ok c, t) := by
  obtain ⟨raw, t, hgiven⟩ := CanonicalCarrier.ofShape_ok (slots_le hslots) fun _ => hname
  have outcome := ofTypes_outcome ts hs
  generalize (ofTypes ts).exec st = out at outcome
  cases outcome with
  | kept => exact ⟨_, _, rfl⟩
  | refused hraw => cases hgiven.symm.trans hraw
  | made => exact ⟨_, _, rfl⟩

theorem componentOf_ok {i : Nat} (hi : i < ts.length) : ∃ h t, (componentOf ts i).exec st = (.ok h, t) := by
  obtain ⟨raw, t, hgiven⟩ := CanonicalCarrier.ofShape_ok (slots_le hslots) fun _ => hname
  have outcome := componentOf_outcome ts i hs
  generalize (componentOf ts i).exec st = out at outcome
  cases outcome with
  | outOfBounds hle => omega
  | refused _ hraw => cases hgiven.symm.trans hraw
  | made => exact ⟨_, _, rfl⟩

end Succeeds

end TypedCarrier

end PatternDispatch

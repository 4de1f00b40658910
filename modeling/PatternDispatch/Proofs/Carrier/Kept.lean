-- The laws of kept carriers. Over any requests for carriers and any definitions
-- of classes in between, a shape within the limit has one carrier and one class,
-- and a request that fails leaves the classes and the kept carriers as they were.
import Mathlib.Data.Set.Card
import PatternDispatch.Proofs.Carrier.Naming
import PatternDispatch.Proofs.Reachable

namespace PatternDispatch

/-! ## Requests -/

/-- What a program can ask of a store that keeps carriers. -/
inductive CarrierRequest where
  | shape (s : Shape)
  | types (ts : List Ty)
  | part (ts : List Ty) (i : Nat)
  /-- The definition of a class of the program. -/
  | define (d : ClassDef)

inductive CarrierAnswer where
  | canonical (c : CanonicalCarrier)
  | typed (c : TypedCarrier)
  | reader (h : Handle)
  | cls (c : ClassId)

namespace CarrierRequest

def perform : CarrierRequest → Build CarrierAnswer
  | .shape s => return .canonical (← CanonicalCarrier.ofShape s)
  | .types ts => return .typed (← TypedCarrier.ofTypes ts)
  | .part ts i => return .reader (← TypedCarrier.componentOf ts i)
  | .define d => return .cls (← Build.define d)

/-- The shape that the request needs a carrier of. A part that is out of bounds
needs none. -/
def shape? : CarrierRequest → Option Shape
  | .shape s => some s
  | .types ts => some (.ofTypes ts)
  | .part ts i => if i < ts.length then some (.ofTypes ts) else none
  | .define _ => none

end CarrierRequest

/-- Requests with what came of them, the latest first. -/
abbrev CarrierLog := List (CarrierRequest × Except BuildError CarrierAnswer)

/-- A request for the shape has succeeded. -/
def CarrierLog.Answered (log : CarrierLog) (s : Shape) : Prop :=
  ∃ q a, (q, .ok a) ∈ log ∧ q.shape? = some s

namespace Store

/-- One request after another, from the first store to the last one. -/
inductive Served (st : Store) : CarrierLog → Store → Prop
  | start : Served st [] st
  | ask {log : CarrierLog} {t : Store} (q : CarrierRequest) :
    Served st log t → Served st ((q, (q.perform.exec t).1) :: log) (q.perform.exec t).2

/-- No carrier was asked for, and no class defined. The settings may be fixed. -/
structure Fresh (st : Store) : Prop where
  registry : st.registry = .initial
  shapes : st.shapes = []
  typed : st.typed = []

/-- Whether carriers of the shape are kept, and are of a class of their own. -/
def Keeps (st : Store) (s : Shape) : Prop :=
  ¬ CanonicalCarrier.maxSlots < s.slotCount ∧ s.slotCount.toNat ≤ st.inForce.specializeLimit

/-- Unless the slots wrap, they are at most the ceiling and at most the limit. -/
theorem keeps_iff {st : Store} {s : Shape} (h : s.slots < 2 ^ 64) :
    st.Keeps s ↔ s.slots ≤ 254 ∧ s.slots ≤ st.inForce.specializeLimit := by
  rw [Keeps, CanonicalCarrier.maxSlots_lt_iff, Shape.toNat_slotCount_eq_mod, Nat.mod_eq_of_lt h, Nat.not_lt]

/-- The classes and the kept carriers are as they were. -/
structure Untouched (t u : Store) : Prop where
  registry : u.registry = t.registry
  shapes : u.shapes = t.shapes
  typed : u.typed = t.typed

theorem Untouched.refl (t : Store) : t.Untouched t := ⟨rfl, rfl, rfl⟩

/-- No class is gone, and the settings in force are the same. -/
structure Onward (t u : Store) : Prop where
  size_le : t.registry.size ≤ u.registry.size
  inForce : u.inForce = t.inForce

theorem Onward.refl (t : Store) : t.Onward t := ⟨Nat.le_refl _, rfl⟩

end Store

/-- The class of the carrier is known by the name of the shape, and it is a class
that the library made right below that of all carriers. -/
def CanonicalCarrier.Registered (c : CanonicalCarrier) (s : Shape) (r : Registry) : Prop :=
  ∃ cls i, c.cls = some cls ∧ r.lookup? s.name = some cls ∧ r.info? cls = some i ∧ i.name = s.name ∧
    i.superclass = some .carrier ∧ i.modifiers.synthetic

namespace CanonicalCarrier

variable {s : Shape} {c : CanonicalCarrier} {r : Registry} {t u : Store}

theorem Registered.define (h : c.Registered s r) (d : ClassDef) : c.Registered s (r.define d).2 := by
  obtain ⟨cls, i, hcls, hlookup, hinfo, hclass⟩ := h
  exact ⟨cls, i, hcls, Registry.lookup?_define_of_some hlookup, Registry.within_define r d cls i hinfo, hclass⟩

theorem registered_of_admissible (hr : (r.define (classDef s)).2.Named) (h : Admissible s r)
    (hcls : c.cls = some (r.define (classDef s)).1) : c.Registered s (r.define (classDef s)).2 := by
  have hlookup := Registry.lookup?_define r (classDef s)
  obtain ⟨i, hinfo, hname⟩ := (hr _ _).mp hlookup
  rw [Admissible, isCarrierClass, Registry.info, hinfo, Option.getD_some, Bool.and_eq_true, beq_iff_eq] at h
  exact ⟨_, i, hcls, hlookup, hinfo, hname, h⟩

/-! ## What a request does to the store -/

/-- The carrier was kept, or is made and kept now. -/
inductive Gives (s : Shape) (c : CanonicalCarrier) (t u : Store) : Prop
  | kept : (s, c) ∈ t.shapes → u.registry = t.registry → u.shapes = t.shapes → Gives s c t u
  | made : List.lookup s t.shapes = none → Admissible s t.registry →
    c.cls = some (t.registry.define (classDef s)).1 →
    u.registry = (t.registry.define (classDef s)).2 → u.shapes = (s, c) :: t.shapes → Gives s c t u

namespace Gives

theorem mem (h : Gives s c t u) : (s, c) ∈ u.shapes := by
  cases h with
  | kept hmem _ hshapes => exact hshapes ▸ hmem
  | made _ _ _ _ hshapes => exact hshapes ▸ List.mem_cons_self

theorem subset (h : Gives s c t u) : t.shapes ⊆ u.shapes := by
  cases h with
  | kept _ _ hshapes => exact hshapes ▸ List.Subset.refl _
  | made _ _ _ _ hshapes => exact hshapes ▸ List.subset_cons_self _ _

theorem mem_shapes_iff (h : Gives s c t u) {s' : Shape} :
    s' ∈ u.shapes.map Prod.fst ↔ s' = s ∨ s' ∈ t.shapes.map Prod.fst := by
  cases h with
  | kept hmem _ hshapes =>
    rw [hshapes]
    refine ⟨Or.inr, ?_⟩
    rintro (rfl | h)
    · exact List.mem_map_of_mem hmem
    · exact h
  | made _ _ _ _ hshapes => rw [hshapes, List.map_cons, List.mem_cons]

end Gives

theorem ofShape_onward (s : Shape) (t : Store) : t.Onward ((ofShape s).exec t).2 := by
  have outcome := ofShape_outcome s t
  generalize (ofShape s).exec t = out at outcome
  cases outcome with
  | exceeded => exact .refl t
  | listed => exact ⟨Nat.le_refl _, rfl⟩
  | kept => exact ⟨Nat.le_refl _, rfl⟩
  | made => exact ⟨Registry.size_le_define _ _, rfl⟩
  | taken => exact ⟨Registry.size_le_define _ _, rfl⟩

/-- Within the limit, the carrier that is given is kept. -/
theorem ofShape_gives (hkeeps : t.Keeps s) (h : (ofShape s).exec t = (.ok c, u)) :
    Gives s c t u ∧ u.typed = t.typed := by
  obtain ⟨hmax, hlimit⟩ := hkeeps
  have outcome := ofShape_outcome s t
  rw [h] at outcome
  cases outcome with
  | listed _ hpast => omega
  | kept _ _ hkept => exact ⟨.kept (mem_of_lookup hkept) rfl rfl, rfl⟩
  | made _ _ hnone hadmissible _ hcls => exact ⟨.made hnone hadmissible hcls rfl rfl, rfl⟩

/-- Past the limit, nothing is kept. -/
theorem ofShape_past (hkeeps : ¬ t.Keeps s) :
    t.Untouched ((ofShape s).exec t).2 ∧ ∀ c u, (ofShape s).exec t = (.ok c, u) → c.cls = none := by
  have outcome := ofShape_outcome s t
  generalize (ofShape s).exec t = out at outcome
  cases outcome with
  | exceeded => exact ⟨.refl t, fun _ _ h => by cases h⟩
  | listed _ _ _ hcls =>
    refine ⟨⟨rfl, rfl, rfl⟩, ?_⟩
    intro c u h
    cases h
    exact hcls
  | kept hmax hlimit => exact absurd ⟨hmax, hlimit⟩ hkeeps
  | made hmax hlimit => exact absurd ⟨hmax, hlimit⟩ hkeeps
  | taken hmax hlimit => exact absurd ⟨hmax, hlimit⟩ hkeeps

/-- A request that fails leaves everything as it was. -/
theorem ofShape_untouched {e : BuildError} (h : (ofShape s).exec t = (.error e, u))
    (hsize : u.registry.size ≤ 2 ^ 32) : t.Untouched u := by
  have outcome := ofShape_outcome s t
  rw [h] at outcome
  cases outcome with
  | exceeded => exact .refl t
  | taken _ _ _ htaken => exact ⟨define_of_not_admissible hsize htaken, rfl, rfl⟩

/-- A request fails over the name of the class just when it has to make that class
and another sort of class has the name. -/
theorem ofShape_taken_iff (hsize : ((ofShape s).exec t).2.registry.size ≤ 2 ^ 32) :
    (∃ shape reason, ((ofShape s).exec t).1 = .error (.specializationFailed shape reason)) ↔
      t.Keeps s ∧ List.lookup s t.shapes = none ∧
        ∃ cls, t.registry.lookup? s.name = some cls ∧ ¬ isCarrierClass (t.registry.info cls) := by
  have outcome := ofShape_outcome s t
  generalize (ofShape s).exec t = out at outcome hsize
  cases outcome with
  | exceeded hmax => simp [tooLarge, Store.Keeps, hmax]
  | listed _ hpast => simp [Store.Keeps, Nat.not_le_of_lt hpast]
  | kept _ _ hkept => simp [hkept]
  | made _ _ _ hadmissible =>
    rw [← not_admissible_iff hsize]
    simp [hadmissible]
  | taken hmax hlimit hnone htaken =>
    rw [← not_admissible_iff hsize]
    exact ⟨fun _ => ⟨⟨hmax, hlimit⟩, hnone, htaken⟩, fun _ => ⟨_, _, rfl⟩⟩

end CanonicalCarrier

namespace CarrierRequest

variable {q : CarrierRequest} {s : Shape} {t : Store}

open CanonicalCarrier (ofShape)

/-- What a request that needs a carrier of the shape can do. -/
inductive Outcome (q : CarrierRequest) (s : Shape) (t : Store) : Except BuildError CarrierAnswer × Store → Prop
  | remembered {ts : List Ty} {c : TypedCarrier} : q = .types ts → s = .ofTypes ts → (ts, c) ∈ t.typed →
    Outcome q s t (.ok (.typed c), t)
  | refused {e : BuildError} {u : Store} : (ofShape s).exec t = (.error e, u) → Outcome q s t (.error e, u)
  | given {c : CanonicalCarrier} {u : Store} {a : CarrierAnswer} {run : RunState}
    {typed : List (List Ty × TypedCarrier)} :
    (ofShape s).exec t = (.ok c, u) → (q = .shape s → a = .canonical c) →
    (typed = u.typed ∨ c.cls.isSome ∧ ∃ ts d, s = .ofTypes ts ∧ typed = (ts, d) :: u.typed) →
    Outcome q s t (.ok a, { u with run, typed })

theorem exec_define (d : ClassDef) (t : Store) :
    (define d).perform.exec t =
      (.ok (.cls (t.registry.define d).1), { t with registry := (t.registry.define d).2 }) := rfl

theorem perform_outcome (ht : t.Sound) (hq : q.shape? = some s) : q.Outcome s t (q.perform.exec t) := by
  cases q with
  | shape s' =>
    cases hq
    simp only [perform, Build.exec_bind]
    rcases hraw : (ofShape s).exec t with ⟨e | c, u⟩
    · exact .refused hraw
    · exact .given hraw (fun _ => rfl) (Or.inl rfl)
  | types ts =>
    cases hq
    simp only [perform, Build.exec_bind]
    have outcome := TypedCarrier.ofTypes_outcome ts ht
    generalize (TypedCarrier.ofTypes ts).exec t = out at outcome
    cases outcome with
    | kept hkept => exact .remembered rfl rfl (mem_of_lookup hkept)
    | refused hraw => exact .refused hraw
    | made hraw =>
      refine .given hraw (fun h => by cases h) ?_
      split
      · exact Or.inr ⟨‹_›, ts, _, rfl, rfl⟩
      · exact Or.inl rfl
  | part ts i =>
    simp only [shape?] at hq
    split at hq
    · rename_i hi
      cases hq
      simp only [perform, Build.exec_bind]
      have outcome := TypedCarrier.componentOf_outcome ts i ht
      generalize (TypedCarrier.componentOf ts i).exec t = out at outcome
      cases outcome with
      | outOfBounds hle => omega
      | refused _ hraw => exact .refused hraw
      | made _ hraw => exact .given hraw (fun h => by cases h) (Or.inl rfl)
    · cases hq
  | define => cases hq

/-- A request that needs no carrier is refused, or it is for a class. -/
theorem perform_of_shape?_none (ht : t.Sound) (hq : q.shape? = none) :
    (∃ d, q = .define d) ∨ ∃ index count, q.perform.exec t = (.error (.componentOutOfBounds index count), t) := by
  cases q with
  | shape => cases hq
  | types => cases hq
  | part ts i =>
    simp only [shape?] at hq
    split at hq
    · cases hq
    · simp only [perform, Build.exec_bind]
      have outcome := TypedCarrier.componentOf_outcome ts i ht
      generalize (TypedCarrier.componentOf ts i).exec t = out at outcome
      cases outcome with
      | outOfBounds => exact Or.inr ⟨_, _, rfl⟩
      | refused hlt => omega
      | made hlt => omega
  | define d => exact Or.inl ⟨d, rfl⟩

theorem perform_sound (ht : t.Sound) (q : CarrierRequest) : (q.perform.exec t).2.Sound := by
  cases q with
  | shape s =>
    rw [perform, Build.exec_map]
    exact (CanonicalCarrier.ofShape_sound ht).1
  | types ts =>
    rw [perform, Build.exec_map]
    exact (TypedCarrier.ofTypes_sound ht).1
  | part ts i =>
    rw [perform, Build.exec_map]
    exact (TypedCarrier.componentOf_sound ht).1
  | define d => exact ht.of_same rfl rfl rfl rfl

theorem perform_onward (ht : t.Sound) (q : CarrierRequest) : t.Onward (q.perform.exec t).2 := by
  cases hq : q.shape? with
  | none =>
    rcases perform_of_shape?_none ht hq with ⟨d, rfl⟩ | ⟨index, count, hexec⟩
    · exact ⟨Registry.size_le_define _ d, rfl⟩
    · rw [hexec]
      exact .refl t
  | some s =>
    have honward := CanonicalCarrier.ofShape_onward s t
    have outcome := perform_outcome ht hq
    generalize q.perform.exec t = out at outcome
    cases outcome with
    | remembered => exact .refl t
    | refused hraw => rwa [hraw] at honward
    | given hraw =>
      rw [hraw] at honward
      exact ⟨honward.size_le, honward.inForce⟩

end CarrierRequest

/-! ## Stores in order -/

namespace Store

open CanonicalCarrier (Admissible Gives isCarrierClass ofShape ofShape_gives ofShape_past ofShape_untouched
  ofShape_taken_iff)

/-- What holds of the classes and the kept carriers after any requests. -/
structure Orderly (t : Store) : Prop where
  sound : t.Sound
  named : t.registry.Named
  nodup : (t.shapes.map Prod.fst).Nodup
  registered : ∀ s c, (s, c) ∈ t.shapes → c.Registered s t.registry
  typed : ∀ ts c, (ts, c) ∈ t.typed → .ofTypes ts ∈ t.shapes.map Prod.fst

variable {st t u : Store} {log : CarrierLog} {s : Shape} {q : CarrierRequest} {c : CanonicalCarrier}

theorem Fresh.sound (h : st.Fresh) : st.Sound := by
  refine ⟨?_, ?_⟩
  · simp [h.shapes]
  · simp [h.typed]

theorem Fresh.orderly (h : st.Fresh) : st.Orderly := by
  refine ⟨h.sound, ?_, ?_, ?_, ?_⟩
  · rw [h.registry]
    exact Registry.named_initial
  · simp [h.shapes]
  · simp [h.shapes]
  · simp [h.typed]

/-- A shape has one kept carrier. -/
theorem Orderly.unique (ht : t.Orderly) {c' : CanonicalCarrier} (h : (s, c) ∈ t.shapes)
    (h' : (s, c') ∈ t.shapes) : c = c' := by
  have heq := List.inj_on_of_nodup_map ht.nodup h h' rfl
  cases heq
  rfl

/-- Where a carrier is kept, the class of its name is a carrier class. -/
theorem Orderly.carrier_class (ht : t.Orderly) (h : (s, c) ∈ t.shapes) {cls : ClassId}
    (hcls : t.registry.lookup? s.name = some cls) : isCarrierClass (t.registry.info cls) := by
  obtain ⟨cls', i, -, hlookup, hinfo, -, hclass⟩ := ht.registered s c h
  cases hcls.symm.trans hlookup
  rw [CanonicalCarrier.isCarrierClass, Registry.info, hinfo, Option.getD_some, Bool.and_eq_true, beq_iff_eq]
  exact hclass

/-- What a successful request for a shape within the limit does: the carrier of the
shape is kept, as it was or from now on. -/
theorem Orderly.gives (ht : t.Orderly) (hq : q.shape? = some s) (hkeeps : t.Keeps s) {a : CarrierAnswer}
    (h : q.perform.exec t = (.ok a, u)) :
    ∃ c, Gives s c t u ∧ (q = .shape s → a = .canonical c) ∧
      (u.typed = t.typed ∨ ∃ ts d, s = .ofTypes ts ∧ u.typed = (ts, d) :: t.typed) := by
  have outcome := CarrierRequest.perform_outcome ht.sound hq
  rw [h] at outcome
  cases outcome with
  | remembered hts hs hmem =>
    obtain ⟨⟨s', c⟩, hc, rfl⟩ := List.mem_map.mp (ht.typed _ _ hmem)
    subst hs
    refine ⟨c, .kept hc rfl rfl, ?_, Or.inl rfl⟩
    intro hs
    cases hs.symm.trans hts
  | @given c v _ run typed hraw hanswer htyped =>
    obtain ⟨hgives, hsame⟩ := ofShape_gives hkeeps hraw
    rw [hsame] at htyped
    refine ⟨c, ?_, hanswer, htyped.imp_right fun h => h.2⟩
    cases hgives with
    | kept hmem hregistry hshapes => exact .kept hmem hregistry hshapes
    | made hnone hadmissible hcls hregistry hshapes => exact .made hnone hadmissible hcls hregistry hshapes

/-- A request for a shape past the limit leaves everything as it was. -/
theorem Orderly.past (ht : t.Orderly) (hq : q.shape? = some s) (hkeeps : ¬ t.Keeps s) :
    t.Untouched (q.perform.exec t).2 := by
  obtain ⟨huntouched, hrow⟩ := ofShape_past hkeeps
  have outcome := CarrierRequest.perform_outcome ht.sound hq
  generalize q.perform.exec t = out at outcome
  cases outcome with
  | remembered => exact .refl t
  | refused hraw => rwa [hraw] at huntouched
  | given hraw _ htyped =>
    have hcls := hrow _ _ hraw
    rw [hraw] at huntouched
    obtain ⟨hregistry, hshapes, hsame⟩ := huntouched
    rcases htyped with htyped | ⟨howned, -⟩
    · exact ⟨hregistry, hshapes, htyped.trans hsame⟩
    · rw [hcls] at howned
      cases howned

/-- A request that fails leaves everything as it was. -/
theorem Orderly.failed (ht : t.Orderly) {e : BuildError} (h : q.perform.exec t = (.error e, u))
    (hsize : u.registry.size ≤ 2 ^ 32) : t.Untouched u := by
  cases hq : q.shape? with
  | none =>
    rcases CarrierRequest.perform_of_shape?_none ht.sound hq with ⟨d, rfl⟩ | ⟨index, count, hexec⟩
    · cases h
    · cases h.symm.trans hexec
      exact .refl t
  | some s =>
    have outcome := CarrierRequest.perform_outcome ht.sound hq
    rw [h] at outcome
    cases outcome with
    | refused hraw => exact ofShape_untouched hraw hsize

/-- A request for a shape fails over the class name just when a carrier would be kept
and the name belongs to another sort of class. -/
theorem Orderly.shape_taken_iff (ht : t.Orderly) (hsize : ((ofShape s).exec t).2.registry.size ≤ 2 ^ 32) :
    (∃ shape reason, ((ofShape s).exec t).1 = .error (.specializationFailed shape reason)) ↔
      t.Keeps s ∧ ∃ cls, t.registry.lookup? s.name = some cls ∧ ¬ isCarrierClass (t.registry.info cls) := by
  rw [ofShape_taken_iff hsize]
  refine ⟨fun h => ⟨h.1, h.2.2⟩, ?_⟩
  rintro ⟨hkeeps, cls, hcls, hother⟩
  refine ⟨hkeeps, ?_, cls, hcls, hother⟩
  -- Where the name is taken, no carrier of the shape is kept.
  cases hkept : List.lookup s t.shapes with
  | none => rfl
  | some c => exact absurd (ht.carrier_class (mem_of_lookup hkept) hcls) hother

/-- So does any request that needs a carrier of the shape. -/
theorem Orderly.taken_iff (ht : t.Orderly) (hsize : (q.perform.exec t).2.registry.size ≤ 2 ^ 32) :
    (∃ shape reason, (q.perform.exec t).1 = .error (.specializationFailed shape reason)) ↔
      ∃ s, q.shape? = some s ∧ t.Keeps s ∧
        ∃ cls, t.registry.lookup? s.name = some cls ∧ ¬ isCarrierClass (t.registry.info cls) := by
  cases hq : q.shape? with
  | none =>
    rcases CarrierRequest.perform_of_shape?_none ht.sound hq with ⟨d, rfl⟩ | ⟨index, count, hexec⟩
    · simp [CarrierRequest.exec_define]
    · simp [hexec]
  | some s =>
    have outcome := CarrierRequest.perform_outcome ht.sound hq
    generalize q.perform.exec t = out at outcome hsize
    simp only [Option.some.injEq, exists_eq_left']
    cases outcome with
    | remembered _ hs hmem =>
      obtain ⟨⟨s', c⟩, hc, hs'⟩ := List.mem_map.mp (ht.typed _ _ hmem)
      subst hs
      cases hs'
      refine ⟨?_, ?_⟩
      · rintro ⟨shape, reason, h⟩
        cases h
      · rintro ⟨-, cls, hcls, hother⟩
        exact absurd (ht.carrier_class hc hcls) hother
    | refused hraw =>
      rw [← ht.shape_taken_iff (by rwa [hraw]), hraw]
      simp
    | given hraw =>
      rw [← ht.shape_taken_iff (by rwa [hraw]), hraw]
      simp

theorem Orderly.of_untouched (ht : t.Orderly) (h : t.Untouched u) (hu : u.Sound) : u.Orderly := by
  obtain ⟨hregistry, hshapes, htyped⟩ := h
  refine ⟨hu, ?_, ?_, ?_, ?_⟩
  · rw [hregistry]
    exact ht.named
  · rw [hshapes]
    exact ht.nodup
  · rw [hregistry, hshapes]
    exact ht.registered
  · rw [hshapes, htyped]
    exact ht.typed

theorem Orderly.of_gives (ht : t.Orderly) (hu : u.Sound) (hsize : u.registry.size ≤ 2 ^ 32)
    (hgives : Gives s c t u)
    (htyped : u.typed = t.typed ∨ ∃ ts d, s = .ofTypes ts ∧ u.typed = (ts, d) :: t.typed) : u.Orderly := by
  have htypes : ∀ ts d, (ts, d) ∈ u.typed → .ofTypes ts ∈ u.shapes.map Prod.fst := by
    have hold : ∀ ts d, (ts, d) ∈ t.typed → .ofTypes ts ∈ u.shapes.map Prod.fst :=
      fun ts d h => hgives.mem_shapes_iff.mpr (Or.inr (ht.typed ts d h))
    rcases htyped with htyped | ⟨ts', d', hs, htyped⟩
    · rwa [htyped]
    · intro ts d h
      rw [htyped] at h
      rcases List.mem_cons.mp h with heq | h
      · cases heq
        exact hgives.mem_shapes_iff.mpr (Or.inl hs.symm)
      · exact hold ts d h
  cases hgives with
  | kept _ hregistry hshapes =>
    refine ⟨hu, ?_, ?_, ?_, htypes⟩
    · rw [hregistry]
      exact ht.named
    · rw [hshapes]
      exact ht.nodup
    · rw [hregistry, hshapes]
      exact ht.registered
  | made hnone hadmissible hcls hregistry hshapes =>
    rw [hregistry] at hsize
    have hnamed := ht.named.define hsize
    refine ⟨hu, ?_, ?_, ?_, htypes⟩
    · rwa [hregistry]
    · rw [hshapes, List.map_cons, List.nodup_cons]
      refine ⟨?_, ht.nodup⟩
      intro hin
      obtain ⟨⟨s', c'⟩, hc', rfl⟩ := List.mem_map.mp hin
      have hne := List.lookup_eq_none_iff.mp hnone _ hc'
      simp at hne
    · rw [hregistry, hshapes]
      intro s' c' h
      rcases List.mem_cons.mp h with heq | h
      · cases heq
        exact CanonicalCarrier.registered_of_admissible hnamed hadmissible hcls
      · exact (ht.registered s' c' h).define _

/-- A store stays in order whatever is asked for. -/
theorem Orderly.ask (ht : t.Orderly) (q : CarrierRequest)
    (hsize : (q.perform.exec t).2.registry.size ≤ 2 ^ 32) : (q.perform.exec t).2.Orderly := by
  have hsound := CarrierRequest.perform_sound ht.sound q
  cases hq : q.shape? with
  | none =>
    rcases CarrierRequest.perform_of_shape?_none ht.sound hq with ⟨d, rfl⟩ | ⟨index, count, hexec⟩
    · rw [CarrierRequest.exec_define] at hsize hsound ⊢
      exact ⟨hsound, ht.named.define hsize, ht.nodup, fun s c h => (ht.registered s c h).define d, ht.typed⟩
    · rw [hexec]
      exact ht
  | some s =>
    by_cases hkeeps : t.Keeps s
    · rcases hexec : q.perform.exec t with ⟨e | a, u⟩ <;> rw [hexec] at hsize hsound
      · exact ht.of_untouched (ht.failed hexec hsize) hsound
      · obtain ⟨c, hgives, -, htyped⟩ := ht.gives hq hkeeps hexec
        exact ht.of_gives hsound hsize hgives htyped
    · exact ht.of_untouched (ht.past hq hkeeps) hsound

/-! ## Logs -/

/-- What holds of the requests so far and the kept carriers. -/
structure Recorded (st : Store) (log : CarrierLog) (t : Store) : Prop where
  inForce : t.inForce = st.inForce
  given : ∀ s c, st.Keeps s → (.shape s, .ok (.canonical c)) ∈ log → (s, c) ∈ t.shapes
  answered : ∀ s, s ∈ t.shapes.map Prod.fst ↔ st.Keeps s ∧ log.Answered s

theorem recorded_start (h : st.Fresh) : st.Recorded [] st := by
  refine ⟨rfl, ?_, ?_⟩
  · intro s c _ hmem
    cases hmem
  · simp [h.shapes, CarrierLog.Answered]

theorem answered_cons (q : CarrierRequest) (a : Except BuildError CarrierAnswer) (log : CarrierLog) (s : Shape) :
    CarrierLog.Answered ((q, a) :: log) s ↔ (q.shape? = some s ∧ a.isOk) ∨ log.Answered s := by
  unfold CarrierLog.Answered
  constructor
  · rintro ⟨q', a', hmem, hq'⟩
    rcases List.mem_cons.mp hmem with heq | hmem
    · cases heq
      exact Or.inl ⟨hq', rfl⟩
    · exact Or.inr ⟨q', a', hmem, hq'⟩
  · rintro (⟨hq, ha⟩ | ⟨q', a', hmem, hq'⟩)
    · cases a with
      | error e => cases ha
      | ok a => exact ⟨q, a, List.mem_cons_self, hq⟩
    · exact ⟨q', a', List.mem_cons_of_mem _ hmem, hq'⟩

/-- A request that is refused, or that is past the limit, adds nothing to account for. -/
theorem Recorded.of_same (h : st.Recorded log t) {a : Except BuildError CarrierAnswer}
    (hforce : u.inForce = t.inForce) (hshapes : u.shapes = t.shapes)
    (hnew : ∀ s, q.shape? = some s → st.Keeps s → ¬ a.isOk) : st.Recorded ((q, a) :: log) u := by
  refine ⟨hforce.trans h.inForce, ?_, ?_⟩
  · intro s c hkeeps hmem
    rw [hshapes]
    rcases List.mem_cons.mp hmem with heq | hmem
    · cases heq
      exact absurd rfl (hnew s rfl hkeeps)
    · exact h.given s c hkeeps hmem
  · intro s
    rw [hshapes, h.answered, answered_cons]
    constructor
    · rintro ⟨hkeeps, hlog⟩
      exact ⟨hkeeps, Or.inr hlog⟩
    · rintro ⟨hkeeps, ⟨hq, ha⟩ | hlog⟩
      · exact absurd ha (hnew s hq hkeeps)
      · exact ⟨hkeeps, hlog⟩

/-- A carrier that is given within the limit is the one to account for. -/
theorem Recorded.of_gives (h : st.Recorded log t) {a : CarrierAnswer} (hforce : u.inForce = t.inForce)
    (hq : q.shape? = some s) (hkeeps : st.Keeps s) (hgives : Gives s c t u)
    (ha : q = .shape s → a = .canonical c) : st.Recorded ((q, .ok a) :: log) u := by
  refine ⟨hforce.trans h.inForce, ?_, ?_⟩
  · intro s' c' hkeeps' hmem
    rcases List.mem_cons.mp hmem with heq | hmem
    · cases heq
      cases hq
      cases ha rfl
      exact hgives.mem
    · exact hgives.subset (h.given s' c' hkeeps' hmem)
  · intro s'
    rw [hgives.mem_shapes_iff, h.answered, answered_cons]
    constructor
    · rintro (rfl | ⟨hkeeps', hlog⟩)
      · exact ⟨hkeeps, Or.inl ⟨hq, rfl⟩⟩
      · exact ⟨hkeeps', Or.inr hlog⟩
    · rintro ⟨hkeeps', ⟨hq', -⟩ | hlog⟩
      · cases hq.symm.trans hq'
        exact Or.inl rfl
      · exact Or.inr ⟨hkeeps', hlog⟩

theorem Keeps.of_inForce (hkeeps : t.Keeps s) (h : t.inForce = st.inForce) : st.Keeps s := by
  unfold Keeps
  rw [← h]
  exact hkeeps

theorem Recorded.ask (h : st.Recorded log t) (ht : t.Orderly) (q : CarrierRequest)
    (hsize : (q.perform.exec t).2.registry.size ≤ 2 ^ 32) :
    st.Recorded ((q, (q.perform.exec t).1) :: log) (q.perform.exec t).2 := by
  have hforce := (CarrierRequest.perform_onward ht.sound q).inForce
  cases hq : q.shape? with
  | none =>
    have hshapes : (q.perform.exec t).2.shapes = t.shapes := by
      rcases CarrierRequest.perform_of_shape?_none ht.sound hq with ⟨d, rfl⟩ | ⟨index, count, hexec⟩
      · rfl
      · rw [hexec]
    exact h.of_same hforce hshapes fun s hs => by cases hq.symm.trans hs
  | some s =>
    by_cases hkeeps : t.Keeps s
    · rcases hexec : q.perform.exec t with ⟨e | a, u⟩ <;> rw [hexec] at hsize hforce
      · exact h.of_same hforce (ht.failed hexec hsize).shapes fun _ _ _ hok => by cases hok
      · obtain ⟨c, hgives, ha, -⟩ := ht.gives hq hkeeps hexec
        exact h.of_gives hforce hq (hkeeps.of_inForce h.inForce) hgives ha
    · apply h.of_same hforce (ht.past hq hkeeps).shapes
      intro s' hs' hkeeps'
      cases hq.symm.trans hs'
      exact absurd (hkeeps'.of_inForce h.inForce.symm) hkeeps

theorem Served.sound (hst : st.Sound) (h : Served st log t) : t.Sound := by
  induction h with
  | start => exact hst
  | ask q _ ih => exact CarrierRequest.perform_sound ih q

/-- Whatever is asked for, the store stays in order and the log accounts for it. -/
theorem Served.orderly (hst : st.Fresh) (h : Served st log t) (hsize : t.registry.size ≤ 2 ^ 32) :
    t.Orderly ∧ st.Recorded log t := by
  induction h with
  | start => exact ⟨hst.orderly, recorded_start hst⟩
  | @ask log t q h ih =>
    have hgrows := (CarrierRequest.perform_onward (h.sound hst.sound) q).size_le
    obtain ⟨ht, hlog⟩ := ih (by omega)
    exact ⟨ht.ask q hsize, hlog.ask ht q hsize⟩

/-! ## The law -/

/-- After any requests, a shape within the limit has one carrier, which is of a class
of its own that is registered by the name of the shape; as many carriers are kept as
there are shapes within the limit that were asked for with success; and a next request
that fails, or that is past the limit, leaves the classes and the kept carriers as they
were. It fails over a class only where another sort of class has the name. -/
theorem every_shape_within_the_limit_has_one_carrier (hst : st.Fresh) (h : Served st log t)
    (hsize : t.registry.size ≤ 2 ^ 32) :
    (∀ s c c', st.Keeps s → (.shape s, .ok (.canonical c)) ∈ log → (.shape s, .ok (.canonical c')) ∈ log →
      c = c') ∧
    (∀ s s' c c', st.Keeps s → st.Keeps s' → (.shape s, .ok (.canonical c)) ∈ log →
      (.shape s', .ok (.canonical c')) ∈ log → c.cls.isSome ∧ (c.cls = c'.cls → s = s')) ∧
    Function.Injective Shape.name ∧
    (∀ s c, (s, c) ∈ t.shapes → c.Registered s t.registry) ∧
    (∀ ts c, (ts, c) ∈ t.typed → ∃ raw, (.ofTypes ts, raw) ∈ t.shapes) ∧
    t.specializedCount = {s | st.Keeps s ∧ log.Answered s}.ncard ∧
    ∀ q : CarrierRequest, (q.perform.exec t).2.registry.size ≤ 2 ^ 32 →
      (∀ s, q.shape? = some s → ¬ st.Keeps s → t.Untouched (q.perform.exec t).2) ∧
      (∀ e, (q.perform.exec t).1 = .error e → t.Untouched (q.perform.exec t).2) ∧
      ((∃ shape reason, (q.perform.exec t).1 = .error (.specializationFailed shape reason)) ↔
        ∃ s, q.shape? = some s ∧ st.Keeps s ∧ ∃ cls, t.registry.lookup? s.name = some cls ∧
          ¬ ((t.registry.info cls).superclass = some .carrier ∧ (t.registry.info cls).modifiers.synthetic)) := by
  obtain ⟨ht, hlog⟩ := h.orderly hst hsize
  have hkeeps : ∀ s, t.Keeps s ↔ st.Keeps s :=
    fun s => ⟨fun h => h.of_inForce hlog.inForce, fun h => h.of_inForce hlog.inForce.symm⟩
  refine ⟨?_, ?_, Shape.name_injective, ht.registered, ?_, ?_, ?_⟩
  · intro s c c' hk hc hc'
    exact ht.unique (hlog.given s c hk hc) (hlog.given s c' hk hc')
  · intro s s' c c' hk hk' hc hc'
    obtain ⟨cls, i, hcls, -, hinfo, hname, -⟩ := ht.registered s c (hlog.given s c hk hc)
    obtain ⟨cls', i', hcls', -, hinfo', hname', -⟩ := ht.registered s' c' (hlog.given s' c' hk' hc')
    rw [hcls, hcls']
    refine ⟨rfl, ?_⟩
    rintro heq
    cases heq
    cases hinfo.symm.trans hinfo'
    exact Shape.name_injective (hname.symm.trans hname')
  · intro ts c hmem
    obtain ⟨⟨s, raw⟩, hraw, hs⟩ := List.mem_map.mp (ht.typed ts c hmem)
    exact ⟨raw, hs ▸ hraw⟩
  · have hset : {s | st.Keeps s ∧ log.Answered s} = ((t.shapes.map Prod.fst).toFinset : Set Shape) := by
      ext s
      simp [← hlog.answered]
    rw [hset, Set.ncard_coe_finset, List.toFinset_card_of_nodup ht.nodup, List.length_map]
    rfl
  · intro q hq
    refine ⟨?_, ?_, ?_⟩
    · intro s hs hpast
      exact ht.past hs (by rwa [hkeeps])
    · intro e he
      exact ht.failed (Prod.ext he rfl) hq
    · rw [ht.taken_iff hq]
      simp only [hkeeps, CanonicalCarrier.isCarrierClass, Bool.and_eq_true, beq_iff_eq]

/-- The law on two requests for one shape, with a class of the program in between. -/
theorem two_requests_share_one_carrier :
    ∃ log t, Served (.initial []) log t ∧ log.length = 3 ∧
      (∀ c c', (.shape ⟨1, 1, 0⟩, .ok (.canonical c)) ∈ log →
        (.shape ⟨1, 1, 0⟩, .ok (.canonical c')) ∈ log → c = c') ∧
      {s | (initial []).Keeps s ∧ log.Answered s}.ncard = 1 := by
  have hstart : Served (initial []) [] (initial []) := .start
  have served := ((hstart.ask (.shape ⟨1, 1, 0⟩)).ask (.define (.named "User"))).ask (.shape ⟨1, 1, 0⟩)
  obtain ⟨hone, -, -, -, -, hcount, -⟩ :=
    every_shape_within_the_limit_has_one_carrier ⟨rfl, rfl, rfl⟩ served (by decide)
  have hkeeps : (initial []).Keeps ⟨1, 1, 0⟩ := (keeps_iff (by decide)).mpr ⟨by decide, by decide⟩
  refine ⟨_, _, served, rfl, fun c c' => hone ⟨1, 1, 0⟩ c c' hkeeps, ?_⟩
  rw [← hcount]
  rfl

end Store

end PatternDispatch

-- The law of another target type. A pattern goes to related types only, and
-- wherever it goes, its match attempt sees just what its first target type
-- accepts. So going up twice is going up once.
import PatternDispatch.Proofs.Membership
import PatternDispatch.Proofs.Pattern.Refusals
import PatternDispatch.Proofs.Subclassing

namespace PatternDispatch

variable {r r' : Registry} {old new t u w : Ty} {v : Value} {k : Scalar}

/-! ## Related types -/

namespace Ty

/-- A pattern on the first type can go to the second one. -/
inductive Related (r : Registry) : Ty → Ty → Prop
  | same {t : Ty} : Related r t t
  | boxed {k : Scalar} {c : ClassId} : r.isSubclass k.boxed c → Related r (.scalar k) (.ref c)
  | wider {a b : ClassId} : r.isSubclass a b → Related r (.ref a) (.ref b)
  | narrower {a b : ClassId} : r.isSubclass b a → Related r (.ref a) (.ref b)

/-- The second type is that of a class which the first one, boxed if it is a scalar,
comes below. -/
def Below (r : Registry) (t u : Ty) : Prop := ∃ c, u = .ref c ∧ r.isSubclass t.boxed c

theorem Below.related (h : t.Below r u) : t.Related r u := by
  obtain ⟨c, rfl, hsub⟩ := h
  cases t with
  | scalar k => exact .boxed hsub
  | ref a => exact .wider hsub

theorem Below.within {r' : Registry} (h : t.Below r u) (hw : r.Within r') (hr : r.Ordered) (hr' : r'.Ordered) :
    t.Below r' u := by
  obtain ⟨c, rfl, hsub⟩ := h
  exact ⟨c, rfl, hw.isSubclass hr hr' hsub⟩

theorem Below.trans (htu : t.Below r u) (huw : u.Below r w) (hr : r.Ordered) : t.Below r w := by
  obtain ⟨b, rfl, hab⟩ := htu
  obtain ⟨c, rfl, hbc⟩ := huw
  exact ⟨c, rfl, Registry.isSubclass_trans hr hab hbc⟩

/-- Two types below one another are the same. -/
theorem Below.antisymm (htu : t.Below r u) (hut : u.Below r t) (hr : r.Ordered) : t = u := by
  obtain ⟨b, rfl, hab⟩ := htu
  obtain ⟨a, rfl, hba⟩ := hut
  exact congrArg Ty.ref (Registry.isSubclass_antisymm hr hab hba)

end Ty

namespace Guard

theorem between?_of_related (h : old.Related r new) : between? r old new = some (Guard.from old new) := by
  cases h with
  | same =>
    rw [between?_self]
    cases old <;> rfl
  | boxed hsub => simp [between?, Guard.from, hsub]
  | wider hsub => simp [between?, Guard.from, Ty.assignable, hsub]
  | narrower hsub => simp [between?, Guard.from, Ty.assignable, hsub]

theorem related_of_between? {g : Guard} (h : between? r old new = some g) : old.Related r new := by
  unfold between? at h
  cases old with
  | scalar k =>
    cases new with
    | scalar k' =>
      simp only [Ty.assignable, Option.ite_none_right_eq_some, Bool.or_eq_true, beq_iff_eq] at h
      rcases h with ⟨rfl | rfl, -⟩ <;> exact .same
    | ref c =>
      simp only [Option.ite_none_right_eq_some] at h
      exact .boxed h.1
  | ref a =>
    cases new with
    | scalar k => simp [Ty.assignable] at h
    | ref b =>
      simp only [Ty.assignable, Option.ite_none_right_eq_some, Bool.or_eq_true] at h
      rcases h with ⟨hsub | hsub, -⟩
      · exact .wider hsub
      · exact .narrower hsub

theorem between?_eq_none_iff : between? r old new = none ↔ ¬ old.Related r new := by
  refine ⟨?_, ?_⟩
  · intro hnone hrelated
    rw [between?_of_related hrelated] at hnone
    cases hnone
  · intro hunrelated
    cases h : between? r old new with
    | none => rfl
    | some g => exact absurd (related_of_between? h) hunrelated

/-- Whether a value of the new type comes to a match attempt on the old one. -/
def passes (r : Registry) (old new : Ty) (v : Value) : Bool := old == new || (Guard.from old new).admits r v

/-- Another target type lets through what the old one accepts. -/
theorem passes_iff_accepts (hr : Registry.initial.Within r) (hrelated : old.Related r' new) (hne : old ≠ new)
    (hv : v.Unboxed r) : passes r old new v ↔ old.accepts r v := by
  unfold passes
  rw [beq_eq_false_iff_ne.mpr hne, Bool.false_or]
  cases hrelated with
  | same => exact absurd rfl hne
  | @boxed k c _ =>
    refine ⟨?_, ?_⟩
    · intro hadmits
      have hscalar := hv.scalar?_of_isInstance hr hadmits
      simp [Ty.accepts, hscalar]
    · intro haccepts
      have hclass := Value.class?_of_scalar? (beq_iff_eq.mp haccepts)
      simp [Guard.from, admits, Value.isInstance, hclass, Registry.isSubclass_refl]
  | wider | narrower => cases v <;> simp [Guard.from, admits, Value.isNull, Ty.accepts, Value.class?]

theorem below_of_admits {b d : ClassId} (h : (Guard.from t (.ref b)).admits r v) (hclass : v.class? = some d) :
    r.isSubclass d t.boxed := by
  cases t with
  | scalar k => simpa [Guard.from, admits, Value.isInstance, hclass, Ty.boxed] using h
  | ref a =>
    have hnull : v.isNull = false := by
      rw [Bool.eq_false_iff]
      intro hnull
      rw [Value.isNull_iff.mp hnull] at hclass
      cases hclass
    simpa [Guard.from, admits, hnull, Ty.accepts, hclass, Ty.boxed] using h

/-- The upper one of two types accepts whatever the guard of the lower one lets through. -/
theorem accepts_of_admits (htu : t.Below r u) (hr : r.Ordered) (h : (Guard.from t u).admits r v) :
    u.accepts r v := by
  obtain ⟨b, rfl, hsub⟩ := htu
  unfold Ty.accepts
  cases hclass : v.class? with
  | none => rfl
  | some d => exact Registry.isSubclass_trans hr (below_of_admits h hclass) hsub

/-- What passes on its way to the highest of three types passes at both steps. -/
theorem passes_trans (htu : t.Below r u) (huw : u.Below r w) (hr : r.Ordered) :
    passes r t w v = (passes r t u v && passes r u w v) := by
  unfold passes
  by_cases htu' : t = u
  · subst htu'
    simp
  by_cases huw' : u = w
  · subst huw'
    simp
  have htw : t ≠ w := by
    rintro rfl
    exact htu' (htu.antisymm huw hr)
  rw [beq_eq_false_iff_ne.mpr htu', beq_eq_false_iff_ne.mpr huw', beq_eq_false_iff_ne.mpr htw]
  simp only [Bool.false_or]
  -- The guard goes by the old type alone, so both ways begin with the same one.
  have hsame : Guard.from t w = Guard.from t u := by
    obtain ⟨b, rfl, -⟩ := htu
    obtain ⟨c, rfl, -⟩ := huw
    cases t <;> rfl
  rw [hsame, Bool.eq_iff_iff, Bool.and_eq_true, iff_self_and]
  intro hadmits
  have haccepts := accepts_of_admits htu hr hadmits
  obtain ⟨b, rfl, -⟩ := htu
  obtain ⟨c, rfl, -⟩ := huw
  exact Bool.or_eq_true_iff.mpr (Or.inr haccepts)

end Guard

/-! ## Adapted patterns -/

namespace Pattern

variable {p q wide twice once : Pattern} {target : Ty} {st st' : Store} {s : RunState}

/-- Both patterns answer alike on the value, and leave the run alike. -/
structure AgreeOn (r : Registry) (p q : Pattern) (v : Value) : Prop where
  matchCarrier_eq : ∀ s, (p.matchCarrier v).exec r s = (q.matchCarrier v).exec r s
  matchBindings_eq : ∀ s, (p.matchBindings v).exec r s = (q.matchBindings v).exec r s

/-- The value does not match, and the run is as if nothing had been called. -/
structure TurnsAway (r : Registry) (p : Pattern) (v : Value) : Prop where
  matchCarrier_eq : ∀ s, (p.matchCarrier v).exec r s = (none, s)
  matchBindings_eq : ∀ s, (p.matchBindings v).exec r s = (none, s)

/-- The match attempt runs on what passes, and on nothing else. -/
theorem Adapts.exec_matchCarrier (h : p.Adapts target q) (v : Value) :
    (q.matchCarrier v).exec r s =
      if Guard.passes r p.descriptor.target target v then (p.matchCarrier v).exec r s else (none, s) := by
  unfold Guard.passes
  rcases h.cases with ⟨hsame, rfl⟩ | ⟨hne, -, tryMatch, hrun, hof⟩
  · simp [hsame]
  · rw [beq_eq_false_iff_ne.mpr hne, Bool.false_or]
    have hattempt : q.tryMatch.invoke [v] =
        guarded (Guard.from p.descriptor.target target) p.tryMatch [v] := by
      rw [Handle.invoke, hof.tryMatch_eq, hrun]
    unfold matchCarrier
    rw [hattempt, guarded, bind_assoc, Run.exec_bind_of_some (Run.exec_registry r s)]
    split <;> rfl

theorem Adapts.bodies_eq (h : p.Adapts target q) : q.components.map (·.body) = p.components.map (·.body) := by
  rcases h.cases with ⟨-, rfl⟩ | ⟨-, -, tryMatch, -, hof⟩
  · rfl
  · exact hof.components_eq

theorem Adapts.exec_matchBindings (h : p.Adapts target q) (v : Value) :
    (q.matchBindings v).exec r s =
      if Guard.passes r p.descriptor.target target v then (p.matchBindings v).exec r s else (none, s) := by
  unfold matchBindings
  rw [bindings_congr h.bodies_eq, Run.exec_bind, h.exec_matchCarrier]
  by_cases hpass : Guard.passes r p.descriptor.target target v
  · rw [if_pos hpass, if_pos hpass, Run.exec_bind]
  · rw [if_neg hpass, if_neg hpass]

theorem Adapts.agreeOn (h : p.Adapts target q) (hpass : Guard.passes r p.descriptor.target target v) :
    AgreeOn r q p v := by
  refine ⟨?_, ?_⟩
  · intro s
    rw [h.exec_matchCarrier, if_pos hpass]
  · intro s
    rw [h.exec_matchBindings, if_pos hpass]

theorem Adapts.turnsAway (h : p.Adapts target q) (hpass : ¬ Guard.passes r p.descriptor.target target v) :
    TurnsAway r q v := by
  refine ⟨?_, ?_⟩
  · intro s
    rw [h.exec_matchCarrier, if_neg hpass]
  · intro s
    rw [h.exec_matchBindings, if_neg hpass]

/-- Up one step and another one is up both at once. -/
theorem Adapts.agreeOn_up (hwide : p.Adapts u wide) (htwice : wide.Adapts w twice) (honce : p.Adapts w once)
    (htu : p.descriptor.target.Below r u) (huw : u.Below r w) (hr : r.Ordered) (v : Value) :
    AgreeOn r twice once v := by
  have hpasses : Guard.passes r p.descriptor.target w v = _ := Guard.passes_trans htu huw hr
  refine ⟨?_, ?_⟩
  · intro s
    rw [htwice.exec_matchCarrier, hwide.exec_matchCarrier, honce.exec_matchCarrier, hwide.target_eq, hpasses]
    cases Guard.passes r p.descriptor.target u v <;> simp
  · intro s
    rw [htwice.exec_matchBindings, hwide.exec_matchBindings, honce.exec_matchBindings, hwide.target_eq, hpasses]
    cases Guard.passes r p.descriptor.target u v <;> simp

theorem adapt_ok_of_related (hp : p.Paired) (h : p.descriptor.target.Related st.registry target) :
    ∃ q run, (adapt p target).exec st = (.ok q, { st with run }) :=
  adapt_of_related hp.wellFormed (Guard.between?_of_related h)

theorem related_of_adapt (h : (adapt p target).exec st = (.ok q, st')) :
    p.descriptor.target.Related st.registry target := by
  cases hguard : Guard.between? st.registry p.descriptor.target target with
  | none =>
    rw [adapt_of_unrelated hguard] at h
    cases h
  | some g => exact Guard.related_of_between? hguard

theorem Adapts.descriptor_eq (h : p.Adapts target q) : q.descriptor = p.descriptor.withTarget target := by
  rcases h.cases with ⟨rfl, rfl⟩ | ⟨-, -, tryMatch, -, hof⟩
  · rfl
  · exact hof.descriptor_eq

/-! ## The law -/

/-- A pattern goes to a target type just if that is its own one, is that of a class
above its own class, boxed if it is a scalar, or of a class below it. On another target
type it answers as before on what its first one accepts, null among references; it turns
away all else, and its match attempt is not called. Up one step and then another one is
up both at once, where all classes were defined after those that they name. -/
theorem an_adapted_pattern_keeps_to_its_first_target (hp : p.Paired) :
    (∀ st target e, (adapt p target).Fails st e ↔
      ¬ p.descriptor.target.Related st.registry target ∧
        e = unrelated st.registry p.descriptor.target target) ∧
    (∀ st target q st', (adapt p target).exec st = (.ok q, st') → p.descriptor.target ≠ target →
      q.descriptor = p.descriptor.withTarget target ∧
        ∀ r v, Registry.initial.Within r → v.Unboxed r →
          (p.descriptor.target.accepts r v → AgreeOn r q p v) ∧
            (¬ p.descriptor.target.accepts r v → TurnsAway r q v)) ∧
    ∀ st u w, st.registry.Grown → p.descriptor.target.Below st.registry u → u.Below st.registry w →
      ∃ wide twice once st₁ st₂ st₃, (adapt p u).exec st = (.ok wide, st₁) ∧
        (adapt wide w).exec st₁ = (.ok twice, st₂) ∧ (adapt p w).exec st₂ = (.ok once, st₃) ∧
          ∀ r v, st.registry.Within r → r.Grown → AgreeOn r twice once v := by
  refine ⟨?_, ?_, ?_⟩
  · intro st target e
    rw [adapt_fails_iff hp.wellFormed, Guard.between?_eq_none_iff]
  · intro st target q st' h hne
    have hq : p.Adapts target q := ⟨st, st', h⟩
    refine ⟨hq.descriptor_eq, ?_⟩
    intro r v hr hv
    have hpasses := Guard.passes_iff_accepts hr (related_of_adapt h) hne hv
    rw [← hpasses]
    exact ⟨hq.agreeOn, hq.turnsAway⟩
  · intro st u w hgrown htu huw
    have hst := hgrown.ordered
    obtain ⟨wide, run₁, hwide⟩ := adapt_ok_of_related hp htu.related
    have hq : p.Adapts u wide := ⟨st, _, hwide⟩
    have hup : wide.descriptor.target.Related { st with run := run₁ }.registry w := by
      rw [hq.target_eq]
      exact huw.related
    obtain ⟨twice, run₂, htwice⟩ := adapt_ok_of_related (hq.paired hp) hup
    have hover : p.descriptor.target.Related { st with run := run₂ }.registry w := (htu.trans huw hst).related
    obtain ⟨once, run₃, honce⟩ := adapt_ok_of_related hp hover
    refine ⟨wide, twice, once, _, _, _, hwide, htwice, honce, ?_⟩
    intro r v hwithin hr
    exact hq.agreeOn_up ⟨_, _, htwice⟩ ⟨_, _, honce⟩ (htu.within hwithin hst hr.ordered)
      (huw.within hwithin hst hr.ordered) hr.ordered v

/-- The law on a pattern for ints. -/
theorem a_pattern_for_ints_goes_up_to_numbers_and_objects :
    ∃ p st, p.Paired ∧ p.descriptor.target = .int ∧
      (adapt p .string).Fails st (.incompatibleTarget "int" "String") ∧
      ∃ wide twice once st₁ st₂ st₃, (adapt p (.ref .number)).exec st = (.ok wide, st₁) ∧
        (adapt wide .object).exec st₁ = (.ok twice, st₂) ∧ (adapt p .object).exec st₂ = (.ok once, st₃) ∧
        AgreeOn .initial twice once (.str "x") ∧ AgreeOn .initial wide p (.int 7) ∧
        TurnsAway .initial wide (.str "x") := by
  obtain ⟨p, st, hp, hdescriptor, hregistry⟩ : ∃ p st, (ofType .int).exec (.initial []) = (.ok p, st) ∧
      p.descriptor = ⟨.int, [.int]⟩ ∧ st.registry = .initial := ⟨_, _, rfl, rfl, rfl⟩
  have hpaired := (builds_ofType .int).paired _ _ _ hp
  obtain ⟨hfails, hadapted, hup⟩ := an_adapted_pattern_keeps_to_its_first_target hpaired
  rw [hdescriptor] at hfails hadapted hup
  obtain ⟨wide, twice, once, st₁, st₂, st₃, hwide, htwice, honce, hagree⟩ :=
    hup st (.ref .number) .object (hregistry ▸ .initial) ⟨_, rfl, by rw [hregistry]; rfl⟩
      ⟨_, rfl, by rw [hregistry]; rfl⟩
  obtain ⟨-, hwide'⟩ := hadapted st (.ref .number) wide st₁ hwide (by decide)
  refine ⟨p, st, hpaired, by rw [hdescriptor], ?_, wide, twice, once, st₁, st₂, st₃, hwide, htwice, honce, ?_, ?_, ?_⟩
  · rw [hfails, hregistry]
    refine ⟨?_, rfl⟩
    intro hrelated
    cases hrelated with
    | boxed hsub => cases hsub
  · exact hagree _ _ (hregistry ▸ .refl _) .initial
  · have hunboxed : (Value.int 7).Unboxed .initial := by
      intro hscalar
      cases hscalar
    exact (hwide' _ _ (.refl _) hunboxed).1 rfl
  · have hunboxed : (Value.str "x").Unboxed .initial := by
      intro _ c hclass k
      cases hclass
      cases k <;> rfl
    exact (hwide' _ _ (.refl _) hunboxed).2 (by decide)

end Pattern

end PatternDispatch

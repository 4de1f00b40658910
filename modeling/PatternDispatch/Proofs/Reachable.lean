-- The stores that a program can come to: from an empty one, step by step. In
-- all of them every kept carrier serves.
import Mathlib.Logic.Relation
import PatternDispatch.Proofs.Carrier.Requests

namespace PatternDispatch

namespace Store

/-- One thing that can happen to a store. -/
inductive Step : Store → Store → Prop
  /-- Handles are made or run. -/
  | runs (st : Store) (run : RunState) : Step st { st with run }
  | defines (st : Store) (d : ClassDef) : Step st ((Build.define d).exec st).2
  | fixes (st : Store) : Step st (Build.settings.exec st).2
  | installs (st : Store) (settings : Settings) : Step st ((Build.install settings).exec st).2
  | shape (st : Store) (s : Shape) : Step st ((CanonicalCarrier.ofShape s).exec st).2
  | types (st : Store) (ts : List Ty) : Step st ((TypedCarrier.ofTypes ts).exec st).2
  | part (st : Store) (ts : List Ty) (i : Nat) : Step st ((TypedCarrier.componentOf ts i).exec st).2

def Leads : Store → Store → Prop := Relation.ReflTransGen Step

/-- Whether a program can come to the store. -/
def Reachable (st : Store) : Prop := ∃ environment, (initial environment).Leads st

variable {st st' : Store}

theorem Leads.trans {u : Store} (h : st.Leads st') (h' : st'.Leads u) : st.Leads u :=
  Relation.ReflTransGen.trans h h'

theorem Step.leads (h : Step st st') : st.Leads st' := Relation.ReflTransGen.single h

theorem reachable_initial (environment : List (String × String)) : (initial environment).Reachable :=
  ⟨environment, .refl⟩

theorem Reachable.leads (h : st.Reachable) (h' : st.Leads st') : st'.Reachable := by
  obtain ⟨environment, hlead⟩ := h
  exact ⟨environment, hlead.trans h'⟩

/-! ## Kept carriers serve -/

/-- Once the settings are fixed, nothing changes. -/
theorem install_of_fixed {cfg : Settings} (h : st.settings = some cfg) (settings : Settings) :
    ((Build.install settings).exec st).2 = st := by
  obtain ⟨registry, _, environment, shapes, typed, run⟩ := st
  cases h
  rfl

theorem Sound.install (h : st.Sound) (settings : Settings) : ((Build.install settings).exec st).2.Sound := by
  cases hsettings : st.settings with
  | some cfg =>
    rw [install_of_fixed hsettings]
    exact h
  | none =>
    -- Without fixed settings no carrier is kept.
    have hnone : st.settings ≠ some st.inForce := by simp [hsettings]
    obtain ⟨registry, _, environment, shapes, typed, run⟩ := st
    cases hsettings
    refine ⟨?_, ?_⟩
    · intro s c hmem
      exact absurd (h.shapes s c hmem).2.2.1 hnone
    · intro ts c hmem
      exact absurd (h.typed ts c hmem).2.1 hnone

theorem Step.sound (h : Step st st') (hs : st.Sound) : st'.Sound := by
  cases h with
  | runs => exact hs.of_same rfl rfl rfl rfl
  | defines => exact hs.of_same rfl rfl rfl rfl
  | fixes => exact hs.fixed
  | installs settings => exact hs.install settings
  | shape s => exact (CanonicalCarrier.ofShape_sound hs).1
  | types ts => exact (TypedCarrier.ofTypes_sound hs).1
  | part ts i => exact (TypedCarrier.componentOf_sound hs).1

theorem Leads.sound (h : st.Leads st') (hs : st.Sound) : st'.Sound := by
  induction h with
  | refl => exact hs
  | tail _ step ih => exact step.sound ih

theorem Reachable.sound (h : st.Reachable) : st.Sound := by
  obtain ⟨environment, hlead⟩ := h
  exact hlead.sound (sound_initial environment)

/-! ## Classes stay what they were -/

theorem grows_ofShape (s : Shape) : (CanonicalCarrier.ofShape s).Grows := by
  intro st
  have outcome := CanonicalCarrier.ofShape_outcome s st
  generalize (CanonicalCarrier.ofShape s).exec st = out at outcome
  cases outcome with
  | exceeded => exact .refl _
  | listed => exact .refl _
  | kept => exact .refl _
  | made => exact Registry.within_define _ _
  | taken => exact Registry.within_define _ _

theorem grows_ofTypes (ts : List Ty) : (TypedCarrier.ofTypes ts).Grows := by
  intro st
  unfold TypedCarrier.ofTypes
  rw [Build.exec_bind, Build.exec_get]
  simp only
  cases List.lookup ts st.typed with
  | some c => exact .refl _
  | none =>
    refine (grows_ofShape _).bind (fun raw => ?_) st
    refine (Build.grows_handle _ _).bind fun constructor => ?_
    refine (Build.grows_mapM (fun _ => Build.grows_handle _ _) _).bind fun accessors => ?_
    intro u
    split <;> exact .refl u.registry

theorem grows_componentOf (ts : List Ty) (i : Nat) : (TypedCarrier.componentOf ts i).Grows := by
  unfold TypedCarrier.componentOf
  simp only
  split
  · exact (grows_ofShape _).bind fun _ => Build.grows_handle _ _
  · exact Build.grows_throw _

theorem Step.within (h : Step st st') : st.registry.Within st'.registry := by
  cases h with
  | runs => exact .refl _
  | defines d => exact Registry.within_define _ d
  | fixes => exact .refl _
  | installs settings =>
    obtain ⟨registry, _ | _, environment, shapes, typed, run⟩ := st <;> exact .refl registry
  | shape s => exact grows_ofShape s st
  | types ts => exact grows_ofTypes ts st
  | part ts i => exact grows_componentOf ts i st

theorem Leads.within (h : st.Leads st') : st.registry.Within st'.registry := by
  induction h with
  | refl => exact .refl _
  | tail _ step ih => exact ih.trans step.within

theorem Reachable.within (h : st.Reachable) : Registry.initial.Within st.registry := by
  obtain ⟨environment, hlead⟩ := h
  exact hlead.within

end Store

/-! ## Builds that take steps -/

namespace Build

variable {α β : Type} {x : Build α} {f : α → Build β}

/-- Whatever the build does to a store is a number of steps, also if it fails. -/
def Steps (x : Build α) : Prop := ∀ st : Store, st.Leads (x.exec st).2

theorem steps_pure (a : α) : (pure a : Build α).Steps := fun _ => .refl

theorem steps_throw (e : BuildError) : (throw e : Build α).Steps := fun _ => .refl

theorem steps_ofExcept (a : Except BuildError α) : (ofExcept a).Steps := by
  intro st
  rw [exec_ofExcept]
  exact .refl

theorem steps_registry : registry.Steps := fun _ => .refl

theorem Steps.bind (hx : x.Steps) (hf : ∀ a, (f a).Steps) : (x >>= f).Steps := by
  intro st
  have hlead := hx st
  rw [exec_bind]
  rcases hexec : x.exec st with ⟨_ | a, t⟩
  · rw [hexec] at hlead
    exact hlead
  · rw [hexec] at hlead
    exact hlead.trans (hf a t)

theorem steps_handle (sig : Signature) (body : Nat → Body) : (handle sig body).Steps :=
  fun st => (Store.Step.runs st _).leads

theorem steps_mapM (hf : ∀ a, (f a).Steps) (xs : List α) : (xs.mapM f).Steps := by
  induction xs with
  | nil => exact steps_pure []
  | cons x xs ih =>
    rw [List.mapM_cons]
    exact (hf x).bind fun y => ih.bind fun ys => steps_pure (y :: ys)

theorem steps_typed (ts : List Ty) : (TypedCarrier.ofTypes ts).Steps :=
  fun st => (Store.Step.types st ts).leads

/-- A build that took steps has led from the store before it to the one after it. -/
theorem Steps.leads {st t : Store} {a : Except BuildError α} (hx : x.Steps) (h : x.exec st = (a, t)) :
    st.Leads t := by
  have hlead := hx st
  rwa [h] at hlead

/-- The store after it is still one that a program can come to. -/
theorem Steps.reachable {st t : Store} {a : Except BuildError α} (hx : x.Steps) (hst : st.Reachable)
    (h : x.exec st = (a, t)) : t.Reachable := hst.leads (hx.leads h)

end Build

end PatternDispatch

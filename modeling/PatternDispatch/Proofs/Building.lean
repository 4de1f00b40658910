-- The laws of building: steps one after another, and builds that do no more
-- than give out identities.
import PatternDispatch.Proofs.Hierarchy
import PatternDispatch.Proofs.Sequence
import PatternDispatch.Store

namespace PatternDispatch.Build

variable {α β : Type} {x : Build α} {f : α → Build β} {s t : Store}

/-! ## One step after another -/

theorem exec_bind_ok {b : β} (h : (x >>= f).exec s = (.ok b, t)) :
    ∃ a u, x.exec s = (.ok a, u) ∧ (f a).exec u = (.ok b, t) := by
  rw [exec_bind] at h
  rcases hx : x.exec s with ⟨e | a, u⟩
  · rw [hx] at h
    cases h
  · rw [hx] at h
    exact ⟨a, u, rfl, h⟩

theorem exec_ofExcept_ok {y : Except BuildError α} {a : α} (h : (ofExcept y).exec s = (.ok a, t)) :
    y = .ok a ∧ t = s := by
  rw [exec_ofExcept] at h
  cases h
  exact ⟨rfl, rfl⟩

@[simp] theorem exec_get (s : Store) : (get : Build Store).exec s = (.ok s, s) := rfl

theorem exec_map (x : Build α) (g : α → β) (s : Store) :
    ((do return g (← x)) : Build β).exec s = ((x.exec s).1.map g, (x.exec s).2) := by
  rw [exec_bind]
  rcases x.exec s with ⟨_ | a, t⟩ <;> rfl

/-- A new handle has the body, under an identity of its own. -/
theorem exec_handle_bind_ok {sig : Signature} {body : Nat → Body} {g : Handle → Build β} {b : β}
    (h : (handle sig body >>= g).exec s = (.ok b, t)) :
    ∃ made u id, made.body = body id ∧ (g made).exec u = (.ok b, t) := by
  obtain ⟨made, u, hmade, h⟩ := exec_bind_ok h
  rw [exec_handle] at hmade
  cases hmade
  exact ⟨_, _, _, rfl, h⟩

/-! ## Builds that give out identities -/

/-- The build always succeeds, gives what has the property, and leaves the
classes, the settings and the kept carriers as they are. -/
def Mints (x : Build α) (Q : α → Prop) : Prop :=
  ∀ s, ∃ a run, x.exec s = (.ok a, { s with run }) ∧ Q a

theorem mints_pure {Q : α → Prop} {a : α} (h : Q a) : (pure a : Build α).Mints Q :=
  fun s => ⟨a, s.run, rfl, h⟩

theorem mints_handle (sig : Signature) (body : Nat → Body) :
    (handle sig body).Mints fun h => h.sig = sig ∧ ∃ id, h.body = body id :=
  fun s => ⟨_, _, exec_handle sig body s, rfl, s.run.nextId, rfl⟩

theorem Mints.bind {Q : α → Prop} {R : β → Prop} (hx : x.Mints Q) (hf : ∀ a, Q a → (f a).Mints R) :
    (x >>= f).Mints R := by
  intro s
  obtain ⟨a, run, ha, hq⟩ := hx s
  obtain ⟨b, run', hb, hr⟩ := hf a hq { s with run }
  refine ⟨b, run', ?_, hr⟩
  rw [exec_bind, ha]
  exact hb

theorem Mints.mono {Q R : α → Prop} (hx : x.Mints Q) (h : ∀ a, Q a → R a) : x.Mints R := by
  intro s
  obtain ⟨a, run, ha, hq⟩ := hx s
  exact ⟨a, run, ha, h a hq⟩

theorem mints_mapM {Q : α → β → Prop} {xs : List α} (h : ∀ x ∈ xs, (f x).Mints (Q x)) :
    (xs.mapM f).Mints (List.Forall₂ Q xs) := by
  induction xs with
  | nil => exact mints_pure .nil
  | cons x xs ih =>
    rw [List.mapM_cons]
    apply (h x List.mem_cons_self).bind
    intro y hy
    apply (ih fun x' hx' => h x' (List.mem_cons_of_mem _ hx')).bind
    intro ys hys
    exact mints_pure (.cons hy hys)

/-- What such a build gave, over whatever store. -/
theorem Mints.ok {Q : α → Prop} (hx : x.Mints Q) {a : α} (h : x.exec s = (.ok a, t)) :
    Q a ∧ ∃ run, t = { s with run } := by
  obtain ⟨a', run, ha, hq⟩ := hx s
  rw [ha] at h
  cases h
  exact ⟨hq, run, rfl⟩

/-! ## Builds that succeed -/

/-- The build always succeeds, and gives what has the property. -/
def Gives (x : Build α) (Q : α → Prop) : Prop := ∀ s, ∃ a t, x.exec s = (.ok a, t) ∧ Q a

theorem Mints.gives {Q : α → Prop} (hx : x.Mints Q) : x.Gives Q := by
  intro s
  obtain ⟨a, run, ha, hq⟩ := hx s
  exact ⟨a, _, ha, hq⟩

theorem Gives.bind {Q : α → Prop} {R : β → Prop} (hx : x.Gives Q) (hf : ∀ a, Q a → (f a).Gives R) :
    (x >>= f).Gives R := by
  intro s
  obtain ⟨a, t, ha, hq⟩ := hx s
  obtain ⟨b, u, hb, hr⟩ := hf a hq t
  refine ⟨b, u, ?_, hr⟩
  rw [exec_bind, ha]
  exact hb

/-! ## Builds that fail -/

variable {e : BuildError}

/-- Over this store the build fails with the error. -/
def Fails (x : Build α) (s : Store) (e : BuildError) : Prop := (x.exec s).1 = .error e

theorem fails_of_exec {e' : BuildError} (h : x.exec s = (.error e', t)) : x.Fails s e ↔ e = e' := by
  rw [Fails, h, Except.error.injEq, eq_comm]

theorem not_fails_of_exec {a : α} (h : x.exec s = (.ok a, t)) : ¬ x.Fails s e := by
  rw [Fails, h]
  intro hfails
  cases hfails

theorem fails_throw_iff {e' : BuildError} : (throw e' : Build α).Fails s e ↔ e = e' :=
  fails_of_exec (exec_throw e' s)

theorem fails_ofExcept_iff {y : Except BuildError α} : (ofExcept y).Fails s e ↔ y = .error e := by
  rw [Fails, exec_ofExcept]

theorem fails_bind_of_ok {a : α} (h : x.exec s = (.ok a, t)) : (x >>= f).Fails s e ↔ (f a).Fails t e := by
  rw [Fails, exec_bind, h]
  rfl

theorem fails_bind_of_error {e' : BuildError} (h : x.exec s = (.error e', t)) :
    (x >>= f).Fails s e ↔ e = e' := by
  apply fails_of_exec
  rw [exec_bind, h]

/-- The first build that fails decides. -/
theorem fails_bind_iff :
    (x >>= f).Fails s e ↔ x.Fails s e ∨ ∃ a t, x.exec s = (.ok a, t) ∧ (f a).Fails t e := by
  rcases hx : x.exec s with ⟨e' | a, t⟩
  · rw [fails_bind_of_error hx, fails_of_exec hx]
    simp
  · rw [fails_bind_of_ok hx, iff_false_intro (not_fails_of_exec hx), false_or]
    simp

/-- When nothing after it can fail, the first build decides alone. -/
theorem fails_bind_iff_left (hf : ∀ a t, x.exec s = (.ok a, t) → ¬ (f a).Fails t e) :
    (x >>= f).Fails s e ↔ x.Fails s e := by
  rw [fails_bind_iff]
  refine or_iff_left ?_
  rintro ⟨a, t, ha, hrest⟩
  exact hf a t ha hrest

theorem Gives.not_fails {Q : α → Prop} (hx : x.Gives Q) : ¬ x.Fails s e := by
  obtain ⟨a, t, ha, -⟩ := hx s
  exact not_fails_of_exec ha

theorem Mints.not_fails {Q : α → Prop} (hx : x.Mints Q) : ¬ x.Fails s e := hx.gives.not_fails

/-- After a build that gives out identities only the rest can fail. -/
theorem Mints.bind_fails_iff {Q : α → Prop} (hx : x.Mints Q) {P : Prop}
    (hf : ∀ a, Q a → ∀ run, (f a).Fails { s with run } e ↔ P) : (x >>= f).Fails s e ↔ P := by
  obtain ⟨a, run, ha, hq⟩ := hx s
  rw [fails_bind_of_ok ha, hf a hq run]

/-! ## Builds that keep all classes -/

/-- Whatever the build does, every class stays what it was. -/
def Grows (x : Build α) : Prop := ∀ s : Store, s.registry.Within (x.exec s).2.registry

theorem grows_pure (a : α) : (pure a : Build α).Grows := fun s => .refl s.registry

theorem grows_throw (e : BuildError) : (throw e : Build α).Grows := fun s => .refl s.registry

theorem Grows.bind (hx : x.Grows) (hf : ∀ a, (f a).Grows) : (x >>= f).Grows := by
  intro s
  have hfirst := hx s
  rw [exec_bind]
  rcases hexec : x.exec s with ⟨_ | a, u⟩
  · rw [hexec] at hfirst
    exact hfirst
  · rw [hexec] at hfirst
    exact hfirst.trans (hf a u)

theorem grows_handle (sig : Signature) (body : Nat → Body) : (handle sig body).Grows :=
  fun s => .refl s.registry

theorem grows_mapM (hf : ∀ a, (f a).Grows) (xs : List α) : (xs.mapM f).Grows := by
  induction xs with
  | nil => exact grows_pure []
  | cons x xs ih =>
    rw [List.mapM_cons]
    exact (hf x).bind fun y => ih.bind fun ys => grows_pure (y :: ys)

end PatternDispatch.Build

namespace PatternDispatch

/-! ## Handles that read -/

/-- The handle reads one value by the function, and leaves the run as it is. -/
def Handle.Reads (h : Handle) (read : Value → Option Value) : Prop :=
  ∀ v, h.invoke [v] = Run.ofOption (read v)

theorem Build.mints_reader (param ret : Ty) (read : Value → Option Value) :
    (Build.unary param ret fun v => Run.ofOption (read v)).Mints fun h =>
      h.sig = .unary param ret ∧ h.Reads read := by
  apply (Build.mints_handle _ _).mono
  rintro h ⟨hsig, id, hbody⟩
  refine ⟨hsig, ?_⟩
  intro v
  rw [Handle.invoke, hbody]
  rfl

end PatternDispatch

-- The laws of bundles. No binding, one binding and several ones travel in three
-- ways, which check the values differently; whatever is bundled comes out again.
import PatternDispatch.Pattern.Bundle
import PatternDispatch.Proofs.Counting
import PatternDispatch.Proofs.Reachable

namespace PatternDispatch

/-! ## Null in disguise -/

theorem Value.equals_nullMark {v : Value} : v.equals .nullMark = true ↔ v = .nullMark := by
  cases v <;> simp [nullMark, equals]

/-- Every value comes out of its disguise, but the mark comes out as null. -/
theorem Value.reveal_disguise (v : Value) : v.disguise.reveal = v.reveal := by
  cases v <;> rfl

theorem Value.reveal_of_ne {v : Value} (h : v ≠ .nullMark) : v.reveal = v := by
  unfold reveal
  rw [if_neg (mt equals_nullMark.mp h)]

theorem Ty.accepts_iff_takes {r : Registry} {t : Ty} {v : Value} (h : t.isScalar) :
    t.accepts r v ↔ t.Takes v := by
  cases t with
  | ref c => cases h
  | scalar k => simp [accepts, Takes]

namespace Bundle

variable {ts : List Ty} {b : Bundle} {vs : List Value} {r : Registry} {s : RunState}

/-! ## What is checked -/

/-- One value for each type, accepted by it. -/
structure Accepted (r : Registry) (ts : List Ty) (vs : List Value) : Prop where
  length_eq : vs.length = ts.length
  accepts : ∀ (i : Nat) t v, ts[i]? = some t → vs[i]? = some v → t.accepts r v

/-- One value for each type. A single one has to be accepted, and of several ones
the scalars. -/
structure Checked (r : Registry) (ts : List Ty) (vs : List Value) : Prop where
  length_eq : vs.length = ts.length
  accepts : ∀ (i : Nat) t v, ts[i]? = some t → vs[i]? = some v → ts.length = 1 ∨ t.isScalar → t.accepts r v

theorem Accepted.checked (h : Accepted r ts vs) : Checked r ts vs :=
  ⟨h.length_eq, fun i t v ht hv _ => h.accepts i t v ht hv⟩

/-- The value that a component shows of one that was bundled. -/
def shown (ts : List Ty) (v : Value) : Value := if ts.length = 1 then v.reveal else v

theorem shown_of_ne {v : Value} (h : v ≠ .nullMark) : shown ts v = v := by
  unfold shown
  rw [Value.reveal_of_ne h, ite_self]

theorem map_shown (h : ∀ v ∈ vs, v ≠ .nullMark) : vs.map (shown ts) = vs := by
  rw [List.map_congr_left fun v hv => shown_of_ne (h v hv), List.map_id']

theorem invoke_of_construct {w : Value} (h : ((b.construct vs).exec r s).1 = some w) :
    ((b.constructor.invoke vs).exec r s).1 = some w := by
  unfold construct at h
  split at h
  · exact h
  · cases h

/-- What constructor and components of a bundle do for the types. -/
structure Carries (b : Bundle) (ts : List Ty) : Prop where
  arity : b.constructor.sig.arity = ts.length
  sigs_eq : b.components.map Handle.sig = ts.map (Signature.unary b.carrierType)
  takes : ∀ vs r s, ((b.construct vs).exec r s).1.isSome ↔ Checked r ts vs
  ne_null : ∀ vs r s w, ((b.construct vs).exec r s).1 = some w → w ≠ .null
  shows : ∀ vs r s w, ((b.construct vs).exec r s).1 = some w →
    ∀ (i : Nat) h v, b.components[i]? = some h → vs[i]? = some v →
      ∀ r' s', (h.invoke [w]).exec r' s' = (some (shown ts v), s')

theorem Carries.count (hb : b.Carries ts) : b.components.length = ts.length := by
  have hlen := congrArg List.length hb.sigs_eq
  rwa [List.length_map, List.length_map] at hlen

/-! ## The three ways -/

theorem mints_nothing : (ofTypes []).Mints fun b => b.Carries [] := by
  apply (Build.mints_handle _ _).bind
  rintro constructor ⟨hsig, id, hbody⟩
  apply Build.mints_pure
  have hconstruct : ∀ vs r s, ((construct ⟨.object, constructor, []⟩ vs).exec r s).1 =
      if vs.length = 0 then some (.bool true) else none := by
    intro vs r s
    unfold construct
    simp only [hsig, Signature.arity, List.length_nil, Handle.invoke, hbody, Body.constant]
    split <;> rfl
  refine ⟨by rw [hsig]; rfl, rfl, ?_, ?_, ?_⟩
  · intro vs r s
    rw [hconstruct]
    constructor
    · intro h
      split at h
      · rename_i hlen
        refine ⟨hlen, ?_⟩
        intro i t v ht
        cases ht
      · cases h
    · intro h
      have hlen : vs.length = 0 := h.length_eq
      rw [if_pos hlen]
      rfl
  · intro vs r s w h
    rw [hconstruct] at h
    split at h
    · cases h
      exact Value.noConfusion
    · cases h
  · intro vs r s w _ i h v hi
    cases hi

theorem exec_wrap (t : Ty) (v : Value) (r : Registry) (s : RunState) :
    (wrap t v).exec r s = (if t.accepts r v then some v.disguise else none, s) := by
  unfold wrap
  rw [Run.exec_bind, Run.exec_registry]
  simp only
  split <;> rfl

theorem checked_one (t : Ty) (v : Value) : Checked r [t] [v] ↔ t.accepts r v := by
  constructor
  · intro h
    exact h.accepts 0 t v rfl rfl (Or.inl rfl)
  · intro h
    refine ⟨rfl, ?_⟩
    intro i t' v' ht hv _
    cases i with
    | zero =>
      cases ht
      cases hv
      exact h
    | succ i => cases ht

theorem mints_one (t : Ty) : (ofTypes [t]).Mints fun b => b.Carries [t] := by
  apply (Build.mints_handle _ _).bind
  rintro constructor ⟨hsig, id, hbody⟩
  apply (Build.mints_handle _ _).bind
  rintro component ⟨hsig', id', hbody'⟩
  apply Build.mints_pure
  have hone : ∀ v r s, ((construct ⟨.object, constructor, [component]⟩ [v]).exec r s).1 =
      if t.accepts r v then some v.disguise else none := by
    intro v r s
    unfold construct
    simp only [hsig, Signature.unary, Signature.arity, List.length_cons, List.length_nil, if_true, Handle.invoke,
      hbody, Body.unary, exec_wrap]
  have hother : ∀ vs r s, vs.length ≠ 1 →
      ((construct ⟨.object, constructor, [component]⟩ vs).exec r s).1 = none := by
    intro vs r s hlen
    unfold construct
    rw [if_neg (by rw [hsig]; exact hlen)]
    rfl
  have hlength : ∀ vs r s w, ((construct ⟨.object, constructor, [component]⟩ vs).exec r s).1 = some w →
      ∃ v, vs = [v] ∧ w = v.disguise := by
    intro vs r s w h
    by_cases hlen : vs.length = 1
    · obtain ⟨v, rfl⟩ := List.length_eq_one_iff.mp hlen
      rw [hone] at h
      split at h
      · cases h
        exact ⟨v, rfl, rfl⟩
      · cases h
    · rw [hother vs r s hlen] at h
      cases h
  refine ⟨by rw [hsig]; rfl, by rw [List.map_singleton, hsig']; rfl, ?_, ?_, ?_⟩
  · intro vs r s
    by_cases hlen : vs.length = 1
    · obtain ⟨v, rfl⟩ := List.length_eq_one_iff.mp hlen
      rw [hone, checked_one]
      split <;> simp_all
    · rw [hother vs r s hlen]
      constructor
      · intro h
        cases h
      · intro h
        exact absurd h.length_eq hlen
  · intro vs r s w h
    obtain ⟨v, -, rfl⟩ := hlength vs r s w h
    exact v.disguise_ne_null
  · intro vs r s w h i component' v hi hv r' s'
    obtain ⟨v', rfl, rfl⟩ := hlength vs r s w h
    cases i with
    | zero =>
      cases hi
      cases hv
      rw [Handle.invoke, hbody']
      simp only [Body.unary, Run.exec_pure, Value.reveal_disguise, shown, List.length_singleton, if_true]
    | succ i => cases hi

/-- A carrier checks the scalars among its values and no references. -/
theorem fits_iff_checked (hlen : ts.length ≠ 1) : TypedCarrier.Fits ts vs ↔ Checked r ts vs := by
  constructor
  · intro h
    refine ⟨h.length_eq, ?_⟩
    intro i t v ht hv hchecked
    rcases hchecked with hone | hscalar
    · exact absurd hone hlen
    · exact (Ty.accepts_iff_takes hscalar).mpr (h.takes i t v ht hv)
  · intro h
    refine ⟨h.length_eq, ?_⟩
    intro i t v ht hv
    cases t with
    | ref c => exact Ty.takes_ref c v
    | scalar k => exact (Ty.accepts_iff_takes rfl).mp (h.accepts i _ v ht hv (Or.inr rfl))

/-- A carrier that serves the types carries their bindings. -/
theorem carries_of_serves {c : TypedCarrier} {own : Bool} (hc : c.Serves own ts) (hlen : ts.length ≠ 1)
    (hwords : ts.length < 2 ^ 64) : Carries ⟨.carrier, c.constructor, c.accessors⟩ ts := by
  have hconstruct : ∀ vs, construct ⟨.carrier, c.constructor, c.accessors⟩ vs =
      if vs.length = ts.length then c.constructor.invoke vs else Run.noMatch := by
    intro vs
    rw [construct, hc.sig_eq]
    rfl
  refine ⟨by rw [hc.sig_eq]; rfl, hc.sigs_eq, ?_, ?_, ?_⟩
  · intro vs r s
    rw [hconstruct, ← fits_iff_checked hlen]
    split
    · exact hc.takes hwords vs r s
    · rename_i hvs
      constructor
      · intro h
        cases h
      · intro h
        exact absurd h.length_eq hvs
  · intro vs r s w h
    exact hc.ne_null (invoke_of_construct h)
  · intro vs r s w h i component v hi hv r' s'
    rw [hc.reads_back hwords (invoke_of_construct h) (hc.reads hwords i component hi), hv, shown, if_neg hlen]

theorem Carries.construct_eq (hb : b.Carries ts) (h : vs.length = ts.length) :
    b.construct vs = b.constructor.invoke vs := by
  unfold construct
  rw [if_pos (by rw [hb.arity, h])]

/-! ## What a reachable store gives -/

theorem steps_ofTypes (ts : List Ty) : (ofTypes ts).Steps := by
  unfold ofTypes
  split
  · exact (Build.steps_handle _ _).bind fun _ => Build.steps_pure _
  · exact (Build.steps_handle _ _).bind fun _ => (Build.steps_handle _ _).bind fun _ => Build.steps_pure _
  · exact (Build.steps_typed _).bind fun _ => Build.steps_pure _

/-- Every bundle that is given for the types carries their bindings. -/
theorem carries_of_ofTypes {st t : Store} (hst : st.Reachable) (hwords : ts.length < 2 ^ 64)
    (h : (ofTypes ts).exec st = (.ok b, t)) : b.Carries ts := by
  match ts with
  | [] => exact (mints_nothing.ok h).1
  | [ty] => exact ((mints_one ty).ok h).1
  | ty :: ty' :: ts =>
    obtain ⟨c, u, hc, h⟩ := Build.exec_bind_ok h
    cases h
    have hserves := (TypedCarrier.ofTypes_sound hst.sound).2 c t hc
    exact carries_of_serves hserves (by simp) hwords

/-- The components take the carrier type and return the types, however many there are. -/
theorem sigs_of_ofTypes {st t : Store} (hs : st.Sound) (h : (ofTypes ts).exec st = (.ok b, t)) :
    b.components.map Handle.sig = ts.map (Signature.unary b.carrierType) := by
  match ts with
  | [] => exact (mints_nothing.ok h).1.sigs_eq
  | [ty] => exact ((mints_one ty).ok h).1.sigs_eq
  | ty :: ty' :: ts =>
    obtain ⟨c, u, hc, h⟩ := Build.exec_bind_ok h
    cases h
    exact ((TypedCarrier.ofTypes_sound hs).2 c t hc).sigs_eq

/-- A bundle is refused only if several bindings need a carrier, and that is refused. -/
theorem ofTypes_fails_iff {st : Store} {e : BuildError} :
    (ofTypes ts).Fails st e ↔ 2 ≤ ts.length ∧ (TypedCarrier.ofTypes ts).Fails st e := by
  match ts with
  | [] => exact iff_of_false mints_nothing.not_fails (by simp)
  | [ty] => exact iff_of_false (mints_one ty).not_fails (by simp)
  | ty :: ty' :: ts =>
    rw [and_iff_right (by simp)]
    exact Build.fails_bind_iff_left fun c t _ => Build.not_fails_of_exec (Build.exec_pure _ t)

/-- The bundle was given for the types by a store that a program can come to. -/
def Given (b : Bundle) (ts : List Ty) : Prop :=
  ∃ st t, Store.Reachable st ∧ (ofTypes ts).exec st = (.ok b, t)

theorem Given.carries (hb : b.Given ts) (hwords : ts.length < 2 ^ 64) : b.Carries ts := by
  obtain ⟨st, t, hst, h⟩ := hb
  exact carries_of_ofTypes hst hwords h

/-- Values are bundled only if the number of types is a word. -/
theorem Given.words (hb : b.Given ts) {w : Value} (hw : ((b.constructor.invoke vs).exec r s).1 = some w) :
    ts.length < 2 ^ 64 := by
  obtain ⟨st, t, hst, h⟩ := hb
  match ts with
  | [] => decide
  | [ty] => simp
  | ty :: ty' :: ts =>
    obtain ⟨c, u, hc, h⟩ := Build.exec_bind_ok h
    cases h
    exact ((TypedCarrier.ofTypes_sound hst.sound).2 c t hc).words hw

/-! ## Bundling counts nothing -/

theorem silent_wrap (t : Ty) (v : Value) : (wrap t v).Silent := by
  intro r s
  rw [exec_wrap]
  exact .refl s

theorem silent_canonical (s : Shape) (cls : Option ClassId) (args : List Value) :
    (CanonicalCarrier.construct s cls args).Silent := by
  cases cls with
  | some c =>
    apply (Run.silent_ofOption _).bind
    rintro ⟨refs, narrow, wide⟩
    exact Run.silent_freshId.bind fun _ => Run.silent_pure _
  | none =>
    simp only [CanonicalCarrier.construct, CanonicalCarrier.constructListed]
    split
    · exact Run.silent_freshId.bind fun _ => Run.silent_pure _
    · exact Run.silent_noMatch

/-- The constructor of a bundle counts no calls, whether the values fit or not. -/
theorem Given.silent_constructor (hb : b.Given ts) (vs : List Value) : (b.constructor.invoke vs).Silent := by
  obtain ⟨st, t, hst, h⟩ := hb
  match ts with
  | [] =>
    obtain ⟨constructor, u, id, hbody, h⟩ := Build.exec_handle_bind_ok h
    cases h
    rw [Handle.invoke, hbody]
    exact Run.silent_pure _
  | [ty] =>
    obtain ⟨constructor, u, id, hbody, h⟩ := Build.exec_handle_bind_ok h
    obtain ⟨component, u', id', hbody', h⟩ := Build.exec_handle_bind_ok h
    cases h
    rw [Handle.invoke, hbody]
    exact Body.silent_unary id (silent_wrap ty) vs
  | ty :: ty' :: ts =>
    obtain ⟨c, u, hc, h⟩ := Build.exec_bind_ok h
    cases h
    obtain ⟨cls, -, hrun⟩ := ((TypedCarrier.ofTypes_sound hst.sound).2 c t hc).constructs
    rw [Handle.invoke, hrun]
    exact (Run.silent_ofOption _).bind fun _ => silent_canonical _ cls _

theorem Given.silent (hb : b.Given ts) (vs : List Value) : (b.construct vs).Silent := by
  unfold construct
  split
  · exact hb.silent_constructor vs
  · exact Run.silent_noMatch

/-! ## Bundles that are given -/

/-- A bundle with few enough slots and a free class name is given. -/
theorem ofTypes_ok {st : Store} (hst : st.Reachable) (hslots : ts.length + Shape.countIn .wide ts ≤ 254)
    (hname : st.FreeFor (.ofTypes ts)) : ∃ b t, (ofTypes ts).exec st = (.ok b, t) := by
  match ts with
  | [] =>
    obtain ⟨b, run, h, -⟩ := mints_nothing st
    exact ⟨b, _, h⟩
  | [ty] =>
    obtain ⟨b, run, h, -⟩ := mints_one ty st
    exact ⟨b, _, h⟩
  | ty :: ty' :: ts =>
    obtain ⟨c, t, hc⟩ := TypedCarrier.ofTypes_ok hslots hname hst.sound
    refine ⟨⟨.carrier, c.constructor, c.accessors⟩, t, ?_⟩
    unfold ofTypes
    rw [Build.exec_bind, hc]
    rfl

/-- With no more than the well-known classes, two strings have a bundle. -/
theorem two_strings_ok {st : Store} (hst : st.Reachable) (hregistry : st.registry = .initial) :
    ∃ b t, (ofTypes [.string, .string]).exec st = (.ok b, t) := by
  have hnone : Registry.initial.lookup? "Carrier_o2_i0_l0" = none := rfl
  apply ofTypes_ok hst (by decide)
  refine ⟨by rw [hregistry]; decide, ?_⟩
  intro c hc
  rw [hregistry] at hc
  cases hnone.symm.trans hc

end Bundle

end PatternDispatch

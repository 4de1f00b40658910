-- The law of types. Whatever a composed pattern binds is accepted by the type of its
-- binding, if the extractors keep to their types. Each way to make a pattern keeps up
-- that every component gives legal inhabitants of its binding type, and of nested
-- patterns the outer bindings are what the inner ones expect.
import PatternDispatch.Proofs.Membership
import PatternDispatch.Proofs.Pattern.Exposed
import PatternDispatch.Proofs.Pattern.Nested

namespace PatternDispatch

variable {r : Registry} {t target : Ty} {v w : Value} {s s' : RunState} {st st' now : Store}

/-! ## What keeps to its types -/

/-- On a legal target of its type the handle gives a legal inhabitant of its return
type, or does not match. -/
def Handle.Honest (r : Registry) (h : Handle) : Prop :=
  ∀ t v, h.sig.params = [t] → t.Holds r v →
    ∀ s w s', (h.invoke [v]).exec r s = (some w, s') → h.sig.ret.Holds r w

/-- Whatever the body reads out of the carrier is a legal inhabitant of the type. -/
def Body.Gives (r : Registry) (carrier : Value) (b : Body) (t : Ty) : Prop :=
  ∀ s w s', (b.run [carrier]).exec r s = (some w, s') → t.Holds r w

theorem Body.Gives.of_pure {b : Body} (h : b.run [v] = pure w) (hw : t.Holds r w) : b.Gives r v t := by
  intro s x s' hx
  rw [h] at hx
  cases hx
  exact hw

namespace Pattern

variable {p q outer : Pattern} {b : Bundle} {vs : List Value}

/-- From the carrier of a legal target the components give legal inhabitants of the
binding types. -/
def Sound (r : Registry) (p : Pattern) : Prop :=
  ∀ v, p.descriptor.target.Holds r v → ∀ s w s', (p.matchCarrier v).exec r s = (some w, s') →
    List.Forall₂ (Body.Gives r w) (p.components.map (·.body)) p.descriptor.bindings

theorem Sound.bindings (hp : p.Sound r) (hv : p.descriptor.target.Holds r v)
    (h : (p.matchBindings v).exec r s = (some vs, s')) :
    List.Forall₂ (Ty.Holds r) p.descriptor.bindings vs := by
  obtain ⟨w, u, hmatch, h⟩ := Run.exec_bind_some h
  have hgives := hp v hv s w u hmatch
  have hshown := Run.forall₂_of_exec_mapM h
  rw [List.forall₂_map_left_iff] at hgives
  apply forall₂_of_getElem?
  · rw [← hgives.length_eq, hshown.length_eq]
  · intro i t x ht hx
    obtain ⟨c, hc, hct⟩ := getElem?_of_forall₂_right hgives ht
    obtain ⟨x', hx', u, u', hrun⟩ := getElem?_of_forall₂_left hshown hc
    cases hx.symm.trans hx'
    exact hct u x u' hrun

/-- It is enough to look at the carriers that the match attempt gives. -/
theorem MadeOf.sound {d : Descriptor} {tryMatch : Handle} {components : List Handle}
    (hof : p.MadeOf d tryMatch components)
    (h : ∀ v, d.target.Holds r v → ∀ s w s', (tryMatch.invoke [v]).exec r s = (some w, s') → w ≠ .null →
      List.Forall₂ (Body.Gives r w) (components.map (·.body)) d.bindings) : p.Sound r := by
  intro v hv s w s' hmatch
  obtain ⟨hattempt, hne⟩ := exec_matchCarrier_iff.mp hmatch
  rw [Handle.invoke, hof.tryMatch_eq] at hattempt
  rw [hof.components_eq, hof.descriptor_eq]
  rw [hof.descriptor_eq] at hv
  exact h v hv s w s' hattempt hne

/-! ## Patterns that test the target -/

/-- What the handle gives, if it is not null, is the value it got. -/
def Forwards (tryMatch : Handle) : Prop :=
  ∀ v r s w s', (tryMatch.invoke [v]).exec r s = (some w, s') → w ≠ .null → w = v

theorem forwards_identity {h : Handle} {id : Nat} (hbody : h.body = Body.identity id) : Forwards h := by
  intro v r s w s' hattempt _
  rw [Handle.invoke, hbody] at hattempt
  cases hattempt
  rfl

theorem forwards_instances {h : Handle} {id : Nat} {c : ClassId}
    (hbody : h.body = Body.unary id fun v => do
      if v.isInstance (← Run.registry) c then return v else return .null) : Forwards h := by
  intro v r s w s' hattempt hne
  rw [Handle.invoke, hbody] at hattempt
  obtain ⟨-, hself⟩ := Run.exec_of_tested hattempt hne
  cases hself
  rfl

/-- For both sorts of types the target is the carrier, and the component gives it back. -/
theorem ofType_inv (h : (ofType t).exec st = (.ok p, st')) :
    ∃ tryMatch component id, p.MadeOf ⟨t, [t]⟩ tryMatch [component] ∧ Forwards tryMatch ∧
      component.body = Body.identity id := by
  have hrest : ∀ tryMatch u, Forwards tryMatch →
      (do make ⟨t, [t]⟩ tryMatch [← Build.handle (.unary t t) Body.identity]).exec u = (.ok p, st') →
      ∃ tryMatch component id, p.MadeOf ⟨t, [t]⟩ tryMatch [component] ∧ Forwards tryMatch ∧
        component.body = Body.identity id := by
    intro tryMatch u hforwards h
    obtain ⟨component, u', id, hbody, h⟩ := Build.exec_handle_bind_ok h
    exact ⟨tryMatch, component, id, (make_ok h).2.1, hforwards, hbody⟩
  unfold ofType at h
  cases t with
  | scalar k =>
    obtain ⟨tryMatch, u, id, hbody, h⟩ := Build.exec_handle_bind_ok h
    exact hrest tryMatch u (forwards_identity hbody) h
  | ref c =>
    obtain ⟨tryMatch, u, id, hbody, h⟩ := Build.exec_handle_bind_ok h
    exact hrest tryMatch u (forwards_instances hbody) h

theorem sound_ofType (h : (ofType t).exec st = (.ok p, st')) : p.Sound r := by
  obtain ⟨tryMatch, component, id, hof, hforwards, hbody⟩ := ofType_inv h
  apply hof.sound
  intro v hv s w s' hattempt hne
  obtain rfl := hforwards v r s w s' hattempt hne
  refine .cons (.of_pure ?_ hv) .nil
  simp only [hbody]
  rfl

theorem holds_reveal (hv : t.Holds r v) : t.Holds r v.reveal := by
  refine ⟨Bundle.accepts_reveal hv.accepts, ?_⟩
  unfold Value.reveal
  split
  · exact Value.legal_null r
  · exact hv.legal

theorem sound_nullable (h : (nullable t).exec st = (.ok p, st')) : p.Sound r := by
  unfold nullable at h
  cases t with
  | scalar k => exact sound_ofType h
  | ref c =>
    obtain ⟨tryMatch, component, hof, hattempts, hcomponent⟩ := nullable_inv h
    apply hof.sound
    intro v hv s w s' hattempt hne
    rw [hattempts] at hattempt
    obtain ⟨-, hself⟩ := Run.exec_of_tested hattempt hne
    cases hself
    refine .cons (.of_pure (hcomponent v.disguise) ?_) .nil
    rw [v.reveal_disguise]
    exact holds_reveal hv

theorem sound_ofConstant {c : Value} (h : (ofConstant c).exec st = (.ok p, st')) : p.Sound r := by
  obtain ⟨tryMatch, u, -, h⟩ := Build.exec_bind_ok h
  apply (make_ok h).2.1.sound
  intro v _ s w s' _ _
  exact .nil

/-! ## Patterns that take the target apart -/

section Projections

variable {extractors : List Handle}

theorem sound_ofLazyProjection (hhonest : ∀ e ∈ extractors, e.Honest r)
    (h : (ofLazyProjection target extractors).exec st = (.ok p, st')) : p.Sound r := by
  obtain ⟨tryMatch, id, hof, hbody, htakes⟩ := ofLazyProjection_inv h
  apply hof.sound
  intro v hv s w s' hattempt hne
  obtain rfl := forwards_identity hbody v r s w s' hattempt hne
  rw [List.forall₂_map_left_iff, List.forall₂_map_right_iff, List.forall₂_same]
  intro e he
  exact hhonest e he target w (htakes e he) hv

/-- The components of a bundle give what was bundled. -/
theorem Unbundles.gives (hp : p.Unbundles b) (hw : ((b.construct vs).exec r s).1 = some w)
    (hvs : List.Forall₂ (Ty.Holds r) p.descriptor.bindings vs) :
    List.Forall₂ (Body.Gives r w) (p.components.map (·.body)) p.descriptor.bindings := by
  rw [List.forall₂_map_left_iff]
  apply forall₂_of_getElem? hp.count
  intro i c t hc ht u x u' hx
  obtain ⟨v, hv, hholds⟩ := getElem?_of_forall₂_left hvs ht
  have hshows := hp.shows hw hc hv r u
  rw [Handle.invoke, hx] at hshows
  cases hshows
  unfold Bundle.shown
  split
  · exact holds_reveal hholds
  · exact hholds

theorem EagerOf.sound (he : EagerOf p target extractors b) (hb : b.Given p.descriptor.bindings)
    (hhonest : ∀ e ∈ extractors, e.Honest r) : p.Sound r := by
  intro v hv s w s' hmatch
  rw [he.descriptor_eq] at hv
  obtain ⟨vs, u, hvs, hw, hunbundles⟩ := he.bundled hb hmatch
  have hextracted : List.Forall₂ (Ty.Holds r) p.descriptor.bindings vs := by
    have hsteps := Run.forall₂_of_exec_mapM hvs
    rw [he.descriptor_eq, List.forall₂_map_left_iff]
    apply forall₂_of_getElem? hsteps.length_eq
    intro i e x hi hx
    obtain ⟨x', hx', u, u', hrun⟩ := getElem?_of_forall₂_left hsteps hi
    cases hx.symm.trans hx'
    have hmem := List.mem_of_getElem? hi
    exact hhonest e hmem target v (he.takes e hmem) hv u x u' hrun
  exact hunbundles.gives hw hextracted

theorem sound_ofEagerProjection (hst : st.Reachable) (hhonest : ∀ e ∈ extractors, e.Honest r)
    (h : (ofEagerProjection target extractors).exec st = (.ok p, st')) : p.Sound r := by
  obtain ⟨b, u, hb, he⟩ := eagerOf_of_ofEagerProjection h
  apply he.sound _ hhonest
  rw [he.descriptor_eq]
  exact ⟨st, u, hst, hb⟩

/-- The reader of a field of legal records of the class keeps to the type of the component. -/
theorem honest_fieldOf {c : ClassId} {i : Nat} {component : Component} {components : List Component}
    {e : Handle} (hc : (r.info c).components? = some components) (hi : components[i]? = some component)
    (hsig : e.sig = .unary (.ref c) component.ty) (hreads : e.Reads (fieldOf c i)) : e.Honest r := by
  intro t v _ hv s w s' hrun
  rw [hreads v, Run.exec_ofOption] at hrun
  have hfield := (Prod.mk.inj hrun).1
  unfold fieldOf at hfield
  split at hfield
  · rename_i d fields
    split at hfield
    · rename_i hd
      subst hd
      rw [hsig]
      exact ⟨hv.legal.fields d fields components .self hc i component w hi hfield,
        hv.legal.field (List.mem_of_getElem? hfield)⟩
    · cases hfield
  · cases hfield

theorem sound_ofRecord {c : ClassId} (hst : st.Reachable) (hr : st.registry.Within r)
    (h : (ofRecord c).exec st = (.ok p, st')) : p.Sound r := by
  obtain ⟨parts, extractors, u, hparts, hreaders, hu, h⟩ := ofRecord_inv hst h
  apply sound_ofEagerProjection hu _ h
  intro e he
  obtain ⟨i, hi⟩ := List.mem_iff_getElem?.mp he
  obtain ⟨part, hpart, hsig⟩ := hreaders.sig_eq hi
  exact honest_fieldOf (hr.components hparts) hpart hsig (hreaders.reads i e hi)

end Projections

/-! ## Patterns made of patterns -/

/-- What the guard lets through is an inhabitant of the old target type. -/
theorem holds_of_admits {old new : Ty} (hr : Registry.initial.Within r) (hv : new.Holds r v)
    (h : (Guard.from old new).admits r v) : old.Holds r v := by
  refine ⟨?_, hv.legal⟩
  cases old with
  | scalar k =>
    cases new with
    | scalar k' =>
      rcases Bool.or_eq_true_iff.mp h with hnull | haccepts
      · cases Value.isNull_iff.mp hnull
        cases hv.accepts
      · exact haccepts
    | ref c =>
      have hscalar := hv.legal.scalar?_of_isInstance hr h
      simp [Ty.accepts, hscalar]
  | ref c =>
    have h : v.isNull || (Ty.ref c).accepts r v := by cases new <;> exact h
    rcases Bool.or_eq_true_iff.mp h with hnull | haccepts
    · cases Value.isNull_iff.mp hnull
      rfl
    · exact haccepts

theorem Sound.adapts (hp : p.Sound r) (hr : Registry.initial.Within r) (h : p.Adapts target q) : q.Sound r := by
  rcases h.cases with ⟨-, rfl⟩ | ⟨-, -, tryMatch, hrun, hof⟩
  · exact hp
  · apply hof.sound
    intro v hv s w s' hattempt hne
    rw [Handle.invoke, hrun] at hattempt
    obtain ⟨hadmits, hattempt⟩ := Run.exec_of_tested hattempt hne
    exact hp v (holds_of_admits hr hv hadmits) s w s' (exec_matchCarrier_iff.mpr ⟨hattempt, hne⟩)

theorem Sound.drop {positions : List Nat} (hp : p.Sound r)
    (h : (drop p positions).exec st = (.ok q, st')) : q.Sound r := by
  unfold Pattern.drop at h
  simp only at h
  split at h
  · cases h
  · apply (make_ok h).2.1.sound
    intro v hv s w s' hattempt hne
    have hgives := forall₂_filterMap_getElem? (hp v hv s w s' (exec_matchCarrier_iff.mpr ⟨hattempt, hne⟩))
      ((List.range p.descriptor.bindings.length).filter (· ∉ positions))
    simpa only [List.map_filterMap, List.getElem?_map] using hgives

section Nesting

variable {inners : List (Option Pattern)} {types : List Ty} {own : List Value} {lists : List (List Value)}
  {present : List (Nat × Pattern)} {j : Nat}

/-- Inner patterns bind inhabitants of their types, if the outer bindings are ones. -/
theorem InnersGive.holds (h : InnersGive r types own j inners s lists s') (hr : Registry.initial.Within r)
    (hinners : ∀ q, some q ∈ inners → q.Sound r) (hown : List.Forall₂ (Ty.Holds r) types own) :
    List.Forall₂ (Ty.Holds r) (inners.reduceOption.flatMap (·.descriptor.bindings)) lists.flatten := by
  induction h with
  | nil => exact .nil
  | absent _ ih => exact ih fun q hq => hinners q (List.mem_cons_of_mem _ hq)
  | @present j inner q inners s u s' t v vs lists ht hv hq hvs _ ih =>
    obtain ⟨v', hv', hholds⟩ := getElem?_of_forall₂_left hown ht
    cases hv.symm.trans hv'
    rw [← hq.target_eq] at hholds
    have hbound := ((hinners inner List.mem_cons_self).adapts hr hq).bindings hholds hvs
    rw [hq.bindings_eq] at hbound
    rw [List.reduceOption_cons_of_some, List.flatMap_cons, List.flatten_cons]
    exact List.rel_append hbound (ih fun q' hq' => hinners q' (List.mem_cons_of_mem _ hq'))

theorem sound_nested (hst : st.Reachable) (hr : Registry.initial.Within r) (houter : outer.Sound r)
    (hinners : ∀ q, some q ∈ inners → q.Sound r) (h : (nested outer inners).exec st = (.ok p, st')) :
    p.Sound r := by
  obtain ⟨present, b, hn⟩ := nestedOf_of_nested hst h
  obtain ⟨u, u', hadapted⟩ := hn.adapted
  intro v hv s w s' hmatch
  rw [hn.descriptor_eq] at hv
  obtain ⟨all, u₁, hall, hw, hunbundles⟩ := hn.bundled hmatch
  obtain ⟨own, lists, ⟨u₂, hown, hgive⟩, rfl⟩ := (exec_gather_iff hadapted).mp hall
  have hown := houter.bindings hv hown
  have hbound : List.Forall₂ (Ty.Holds r) p.descriptor.bindings (own ++ lists.flatten) := by
    rw [hn.descriptor_eq]
    exact List.rel_append hown (hgive.holds hr hinners hown)
  exact hunbundles.gives hw hbound

end Nesting

/-! ## The law -/

/-- The pattern was built at some time before now. -/
def Built (now : Store) (x : Build Pattern) (p : Pattern) : Prop :=
  ∃ st st', st.Reachable ∧ x.exec st = (.ok p, st') ∧ st'.Leads now

/-- The store that a pattern was built over leads up to now. -/
theorem Built.store {x : Build Pattern} (h : Built now x p) (hx : x.Steps) :
    ∃ st st', st.Reachable ∧ st.Leads now ∧ x.exec st = (.ok p, st') := by
  obtain ⟨st, st', hst, hexec, hnow⟩ := h
  exact ⟨st, st', hst, (hx.leads hexec).trans hnow, hexec⟩

/-- The patterns that were composed of tests, projections and records, in whatever order,
by extractors that keep to their types. -/
inductive Composed (now : Store) : Pattern → Prop
  | ofType {p : Pattern} (t : Ty) : Built now (ofType t) p → Composed now p
  | nullable {p : Pattern} (t : Ty) : Built now (nullable t) p → Composed now p
  | ofConstant {p : Pattern} (c : Value) : Built now (ofConstant c) p → Composed now p
  | ofLazyProjection {p : Pattern} (target : Ty) (extractors : List Handle) :
    (∀ e ∈ extractors, e.Honest now.registry) → Built now (ofLazyProjection target extractors) p →
    Composed now p
  | ofEagerProjection {p : Pattern} (target : Ty) (extractors : List Handle) :
    (∀ e ∈ extractors, e.Honest now.registry) → Built now (ofEagerProjection target extractors) p →
    Composed now p
  | ofRecord {p : Pattern} (c : ClassId) : Built now (ofRecord c) p → Composed now p
  | adapt {p q : Pattern} (target : Ty) : Composed now p → Built now (adapt p target) q → Composed now q
  | drop {p q : Pattern} (positions : List Nat) :
    Composed now p → Built now (drop p positions) q → Composed now q
  | nested {outer p : Pattern} (inners : List (Option Pattern)) :
    Composed now outer → (∀ q, some q ∈ inners → Composed now q) → Built now (nested outer inners) p →
    Composed now p

theorem Composed.sound (h : Composed now p) : p.Sound now.registry := by
  induction h with
  | ofType t h =>
    obtain ⟨st, st', -, h, -⟩ := h
    exact sound_ofType h
  | nullable t h =>
    obtain ⟨st, st', -, h, -⟩ := h
    exact sound_nullable h
  | ofConstant c h =>
    obtain ⟨st, st', -, h, -⟩ := h
    exact sound_ofConstant h
  | ofLazyProjection target extractors hhonest h =>
    obtain ⟨st, st', -, h, -⟩ := h
    exact sound_ofLazyProjection hhonest h
  | ofEagerProjection target extractors hhonest h =>
    obtain ⟨st, st', hst, h, -⟩ := h
    exact sound_ofEagerProjection hst hhonest h
  | ofRecord c h =>
    obtain ⟨st, st', hst, hnow, h⟩ := h.store (builds_ofRecord c).steps
    exact sound_ofRecord hst hnow.within h
  | adapt target _ h ih =>
    obtain ⟨st, st', hst, hnow, h⟩ := h.store (steps_adapt _ _)
    exact ih.adapts (hst.leads hnow).within ⟨st, st', h⟩
  | drop positions _ h ih =>
    obtain ⟨st, st', -, h, -⟩ := h
    exact ih.drop h
  | nested inners _ _ h ih ihs =>
    obtain ⟨st, st', hst, hnow, h⟩ := h.store (builds_nested _ inners).steps
    exact sound_nested hst (hst.leads hnow).within ih ihs h

/-- Whatever a composed pattern binds of a legal target of its type, there is one value
for each binding, and its type accepts it: if each extractor gives legal inhabitants of
its return type or does not match. -/
theorem every_binding_is_accepted_by_its_type (hp : Composed now p)
    (haccepts : p.descriptor.target.accepts now.registry v) (hlegal : v.Legal now.registry)
    (h : (p.matchBindings v).exec now.registry s = (some vs, s')) :
    Bundle.Accepted now.registry p.descriptor.bindings vs := by
  have hholds := hp.sound.bindings ⟨haccepts, hlegal⟩ h
  refine ⟨hholds.length_eq.symm, ?_⟩
  intro i t x ht hx
  obtain ⟨x', hx', hxt⟩ := getElem?_of_forall₂_left hholds ht
  cases hx.symm.trans hx'
  exact hxt.accepts

/-- A class of records with one component for all objects. -/
def boxDef : ClassDef := (ClassDef.named "Box").asRecord [⟨"value", .object⟩]

/-- A store where that class is the first one after the well-known ones. -/
def boxStore : Store := ((Build.define boxDef).exec (.initial [])).2

theorem reachable_boxStore : boxStore.Reachable :=
  (Store.reachable_initial []).leads (Store.Step.defines _ boxDef).leads

theorem legal_box : (Value.object ⟨14⟩ [.int 7]).Legal boxStore.registry := by
  have hinside : ∀ w f : Value, w.Occurs f → f ∈ [.int 7] → w = .int 7 := by
    intro w f hoccurs hf
    cases List.mem_singleton.mp hf
    cases hoccurs
    rfl
  refine ⟨?_, ?_⟩
  · intro c fields components hoccurs hcomponents i component f hi hf
    cases hoccurs with
    | self =>
      cases hcomponents
      cases i with
      | zero =>
        cases hi
        cases hf
        rfl
      | succ i => cases hi
    | field hmem hoccurs => cases hinside _ _ hoccurs hmem
  · intro w c hoccurs hscalar _ hclass k
    cases hoccurs with
    | self =>
      cases hclass
      cases k <;> rfl
    | field hmem hoccurs =>
      cases hinside _ _ hoccurs hmem
      cases hscalar

/-- The law on a record with a pattern for the number 7 inside, adapted to all objects. -/
theorem a_number_in_a_record_is_accepted :
    ∃ now p s', Composed now p ∧ p.descriptor = ⟨.object, [.object]⟩ ∧
      p.descriptor.target.accepts now.registry (.object ⟨14⟩ [.int 7]) ∧
      (Value.object ⟨14⟩ [.int 7]).Legal now.registry ∧
      (p.matchBindings (.object ⟨14⟩ [.int 7])).exec now.registry .initial = (some [.int 7], s') ∧
      Bundle.Accepted now.registry p.descriptor.bindings [.int 7] := by
  obtain ⟨p, now, hbuild, hdescriptor, hregistry, hmatch⟩ :
      ∃ p now, (do
          let record ← ofRecord ⟨14⟩
          let constant ← ofConstant (.int 7)
          adapt (← nested record [some constant]) .object : Build Pattern).exec boxStore = (.ok p, now) ∧
        p.descriptor = ⟨.object, [.object]⟩ ∧ now.registry = boxStore.registry ∧
        ((p.matchBindings (.object ⟨14⟩ [.int 7])).exec boxStore.registry .initial).1 = some [.int 7] :=
    ⟨_, _, rfl, rfl, rfl, rfl⟩
  obtain ⟨record, st₁, hrecord, hbuild⟩ := Build.exec_bind_ok hbuild
  obtain ⟨constant, st₂, hconstant, hbuild⟩ := Build.exec_bind_ok hbuild
  obtain ⟨inside, st₃, hinside, hadapt⟩ := Build.exec_bind_ok hbuild
  -- Every step of the build leads to the next one, and the last one to now.
  have hlead₃ := (steps_adapt inside .object).leads hadapt
  have hlead₂ := (builds_nested record [some constant]).steps.leads hinside |>.trans hlead₃
  have hlead₁ := (builds_ofConstant (.int 7)).steps.leads hconstant |>.trans hlead₂
  have hst₁ := (builds_ofRecord ⟨14⟩).steps.reachable reachable_boxStore hrecord
  have hst₂ := (builds_ofConstant (.int 7)).steps.reachable hst₁ hconstant
  have hst₃ := (builds_nested record [some constant]).steps.reachable hst₂ hinside
  have hcomposed : Composed now p := by
    apply Composed.adapt .object _ ⟨st₃, now, hst₃, hadapt, .refl⟩
    apply Composed.nested [some constant] _ _ ⟨st₂, st₃, hst₂, hinside, hlead₃⟩
    · exact .ofRecord ⟨14⟩ ⟨boxStore, st₁, reachable_boxStore, hrecord, hlead₁⟩
    · intro q hq
      cases List.mem_singleton.mp hq
      exact .ofConstant (.int 7) ⟨st₁, st₂, hst₁, hconstant, hlead₂⟩
  have haccepts : p.descriptor.target.accepts now.registry (.object ⟨14⟩ [.int 7]) := by
    rw [hdescriptor]
    rfl
  have hlegal : (Value.object ⟨14⟩ [.int 7]).Legal now.registry := hregistry ▸ legal_box
  have hexec : (p.matchBindings (.object ⟨14⟩ [.int 7])).exec now.registry .initial =
      (some [.int 7], ((p.matchBindings (.object ⟨14⟩ [.int 7])).exec now.registry .initial).2) :=
    Prod.ext (hregistry ▸ hmatch) rfl
  exact ⟨now, p, _, hcomposed, hdescriptor, haccepts, hlegal, hexec,
    every_binding_is_accepted_by_its_type hcomposed haccepts hlegal hexec⟩

end Pattern

end PatternDispatch

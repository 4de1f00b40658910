-- The law of exposed values: which values a bundle takes, and which ones the
-- components of a pattern then show. One binding is checked by its type; of
-- several ones only the scalars are.
import PatternDispatch.Pattern.Digesters
import PatternDispatch.Proofs.Pattern.Builders

namespace PatternDispatch

/-! ## Values that slip through -/

namespace Bundle

variable {ts : List Ty} {b : Bundle} {vs : List Value} {r : Registry} {s : RunState}

/-- A reference among several bindings that its type does not accept. -/
structure Slips (r : Registry) (ts : List Ty) (t : Ty) (v : Value) : Prop where
  several : 2 ≤ ts.length
  reference : t.isScalar = false
  refused : t.accepts r v = false

theorem accepts_reveal {t : Ty} {v : Value} (h : t.accepts r v) : t.accepts r v.reveal := by
  by_cases hv : v = .nullMark
  · subst hv
    cases t with
    | scalar k => cases h
    | ref c => rfl
  · rwa [Value.reveal_of_ne hv]

/-- Of values that are taken, the ones that are shown and not accepted slipped through. -/
theorem shown_refused_iff (hvs : Checked r ts vs) {i : Nat} {t : Ty} {v : Value} (ht : ts[i]? = some t)
    (hv : vs[i]? = some v) : t.accepts r (shown ts v) = false ↔ Slips r ts t v := by
  have hi := (List.getElem?_eq_some_iff.mp ht).1
  unfold shown
  by_cases hone : ts.length = 1
  · rw [if_pos hone, accepts_reveal (hvs.accepts i t v ht hv (Or.inl hone))]
    apply iff_of_false (Bool.noConfusion)
    intro hslips
    have := hslips.several
    omega
  · rw [if_neg hone]
    refine ⟨?_, fun hslips => hslips.refused⟩
    intro hrefused
    refine ⟨by omega, ?_, hrefused⟩
    by_contra hscalar
    have haccepts := hvs.accepts i t v ht hv (Or.inr (by simpa using hscalar))
    rw [hrefused] at haccepts
    cases haccepts

/-- All values that are taken are accepted, but for those that slip through. -/
theorem accepted_iff (hvs : Checked r ts vs) :
    Accepted r ts vs ↔ ¬ ∃ (i : Nat) (t : Ty) (v : Value), ts[i]? = some t ∧ vs[i]? = some v ∧ Slips r ts t v := by
  refine ⟨?_, ?_⟩
  · rintro haccepted ⟨i, t, v, ht, hv, hslips⟩
    have := haccepted.accepts i t v ht hv
    rw [hslips.refused] at this
    cases this
  · intro hnone
    refine ⟨hvs.length_eq, ?_⟩
    intro i t v ht hv
    by_contra hrefused
    have hrefused : t.accepts r v = false := by simpa using hrefused
    have hi := (List.getElem?_eq_some_iff.mp ht).1
    refine hnone ⟨i, t, v, ht, hv, ?_, ?_, hrefused⟩
    · by_contra hseveral
      have haccepts := hvs.accepts i t v ht hv (Or.inl (by omega))
      rw [hrefused] at haccepts
      cases haccepts
    · by_contra hscalar
      have haccepts := hvs.accepts i t v ht hv (Or.inr (by simpa using hscalar))
      rw [hrefused] at haccepts
      cases haccepts

end Bundle

/-! ## Runs of a digester -/

/-- One run of a digester: the values that it binds with the answers that it gets,
and the result. -/
inductive Digest.Runs (b : Bundle) (r : Registry) :
    Digest → RunState → List (List Value × Value) → Value → RunState → Prop
  | done {w : Value} {s : RunState} : Runs b r (.done w) s [] w s
  | bind {vs : List Value} {next : Value → Digest} {s u s' : RunState} {answer w : Value}
      {binds : List (List Value × Value)} :
    (Run.orNull (b.construct vs)).exec r s = (some answer, u) →
    Runs b r (next answer) u binds w s' →
    Runs b r (.bind vs next) s ((vs, answer) :: binds) w s'

namespace Digest

variable {b : Bundle} {r : Registry} {d : Digest} {s s' : RunState} {w : Value}
  {binds : List (List Value × Value)}

/-- Every digester comes to an end. -/
theorem exists_runs (b : Bundle) (r : Registry) (d : Digest) (s : RunState) :
    ∃ binds w s', Runs b r d s binds w s' := by
  induction d generalizing s with
  | done w => exact ⟨[], w, s, .done⟩
  | bind vs next ih =>
    obtain ⟨binds, w, s', hruns⟩ :=
      ih (((b.construct vs).exec r s).1.getD .null) ((b.construct vs).exec r s).2
    exact ⟨_, w, s', .bind (Run.exec_orNull (b.construct vs) r s) hruns⟩

/-- A digester runs in one way only, and what is left of its bindings is whether there
were any. -/
theorem Runs.exec_run (h : Runs b r d s binds w s') (bound : Bool) :
    (d.run b bound).exec r s = (some (w, bound || !binds.isEmpty), s') := by
  induction h generalizing bound with
  | done => simp [run]
  | bind hanswer _ ih =>
    unfold run
    rw [Run.exec_bind_of_some hanswer, ih]
    simp

/-- Each answer is what bundling the values gave at some time of the run. -/
theorem Runs.answer_of_mem (h : Runs b r d s binds w s') {vs : List Value} {answer : Value}
    (hmem : (vs, answer) ∈ binds) : ∃ t t', (Run.orNull (b.construct vs)).exec r t = (some answer, t') := by
  induction h with
  | done => cases hmem
  | @bind vs' next s t s' answer' w binds hanswer _ ih =>
    rcases List.mem_cons.mp hmem with heq | hmem
    · cases heq
      exact ⟨s, t, hanswer⟩
    · exact ih hmem

/-- An answer that is not null is a bundle of the values. -/
theorem Runs.construct_of_mem (h : Runs b r d s binds w s') {vs : List Value} {answer : Value}
    (hmem : (vs, answer) ∈ binds) (hne : answer ≠ .null) :
    ∃ u, ((b.construct vs).exec r u).1 = some answer := by
  obtain ⟨t, t', hanswer⟩ := h.answer_of_mem hmem
  exact ⟨t, by rw [Run.exec_of_orNull hanswer hne]⟩

end Digest

/-! ## What components show -/

namespace Pattern

variable {p : Pattern} {b : Bundle} {ts : List Ty} {vs : List Value} {r : Registry} {s s' : RunState}
  {v w : Value} {st st' u : Store}

/-- Component `i` reads the value out of the carrier. -/
def Exposes (p : Pattern) (i : Nat) (carrier v : Value) : Prop :=
  ∃ h, p.components[i]? = some h ∧ ∀ r s, (h.invoke [carrier]).exec r s = (some v, s)

/-- Of the values that were bundled, the components show the ones refused by their
types that slipped through, and no others. -/
theorem Unbundles.exposes (hp : p.Unbundles b) (hw : ((b.construct vs).exec r s).1 = some w) {i : Nat} {t : Ty}
    {x : Value} (ht : p.descriptor.bindings[i]? = some t) (hx : vs[i]? = some x) :
    ∃ y, p.Exposes i w y ∧ (t.accepts r y = false ↔ Bundle.Slips r p.descriptor.bindings t x) := by
  have hchecked := (hp.carries.takes vs r s).mp (by rw [hw]; rfl)
  have hi := (List.getElem?_eq_some_iff.mp ht).1
  have hcomponent := List.getElem?_eq_getElem (hp.count ▸ hi)
  exact ⟨_, ⟨_, hcomponent, hp.shows hw hcomponent hx⟩, Bundle.shown_refused_iff hchecked ht hx⟩

/-! ## Digesters -/

theorem ofDigester_inv {d : Descriptor} {digester : Digester} (hst : st.Reachable)
    (hwords : d.bindings.length < 2 ^ 64) (hb : (Bundle.ofTypes d.bindings).exec st = (.ok b, u))
    (h : (ofDigester d digester).exec st = (.ok p, st')) :
    p.descriptor = d ∧ p.Unbundles b ∧ p.tryMatch.invoke [.null] = pure .null ∧
      ∀ v, v ≠ .null → p.tryMatch.invoke [v] = (do
        let (result, bound) ← (digester (← Run.registry) v).run b false
        return if bound then result else .null) := by
  obtain ⟨b', u', hb', h⟩ := Build.exec_bind_ok h
  rw [hb] at hb'
  cases hb'
  obtain ⟨hdescriptor, hunbundles, htry⟩ := made_of_bundle h
  refine ⟨hdescriptor, hunbundles (Bundle.carries_of_ofTypes hst hwords hb), htry .null, ?_⟩
  intro v hv
  rw [htry v]
  cases v with
  | null => exact absurd rfl hv
  | _ => rfl

/-- The carrier is the result of the digester, if that is not null and something was bound. -/
theorem matchCarrier_ofDigester_iff {d : Descriptor} {digester : Digester} {binds : List (List Value × Value)}
    {c : Value} {t : RunState} (hst : st.Reachable) (hwords : d.bindings.length < 2 ^ 64)
    (hb : (Bundle.ofTypes d.bindings).exec st = (.ok b, u))
    (h : (ofDigester d digester).exec st = (.ok p, st')) (hruns : Digest.Runs b r (digester r v) s binds w s') :
    (p.matchCarrier v).exec r s = (some c, t) ↔ v ≠ .null ∧ binds ≠ [] ∧ w ≠ .null ∧ c = w ∧ t = s' := by
  obtain ⟨-, -, hnull, htry⟩ := ofDigester_inv hst hwords hb h
  by_cases hv : v = .null
  · simp [hv, not_matches_null hnull]
  have hattempt : (p.tryMatch.invoke [v]).exec r s = (some (if binds.isEmpty then .null else w), s') := by
    rw [htry v hv, Run.exec_bind_of_some (Run.exec_registry r s), Run.exec_bind_of_some (hruns.exec_run false)]
    cases binds <;> rfl
  rw [exec_matchCarrier_iff, hattempt]
  cases binds with
  | nil =>
    simp only [ne_eq, not_true_eq_false, false_and, and_false, iff_false, not_and, not_not]
    intro hc
    cases hc
    rfl
  | cons bind binds =>
    refine ⟨?_, ?_⟩
    · rintro ⟨hc, hne⟩
      cases hc
      exact ⟨hv, List.cons_ne_nil _ _, hne, rfl, rfl⟩
    · rintro ⟨-, -, hne, rfl, rfl⟩
      exact ⟨rfl, hne⟩

/-- A match of a digester is a run that bound something and gave the carrier. -/
theorem matchCarrier_ofDigester {d : Descriptor} {digester : Digester} (hst : st.Reachable)
    (hwords : d.bindings.length < 2 ^ 64) (hb : (Bundle.ofTypes d.bindings).exec st = (.ok b, u))
    (h : (ofDigester d digester).exec st = (.ok p, st'))
    (hmatch : (p.matchCarrier v).exec r s = (some w, s')) :
    w ≠ .null ∧ ∃ binds, binds ≠ [] ∧ Digest.Runs b r (digester r v) s binds w s' := by
  obtain ⟨binds, result, s'', hruns⟩ := Digest.exists_runs b r (digester r v) s
  obtain ⟨-, hbinds, hne, rfl, rfl⟩ := (matchCarrier_ofDigester_iff hst hwords hb h hruns).mp hmatch
  exact ⟨hne, binds, hbinds, hruns⟩

/-- A digester that returns what it bound matches when the values are taken. -/
theorem matchCarrier_of_bound {d : Descriptor} {digester : Digester} (hst : st.Reachable)
    (hwords : d.bindings.length < 2 ^ 64) (hb : (Bundle.ofTypes d.bindings).exec st = (.ok b, u))
    (h : (ofDigester d digester).exec st = (.ok p, st')) (hv : v ≠ .null) (hbound : digester r v = .bound vs)
    (hw : (b.construct vs).exec r s = (some w, s')) : (p.matchCarrier v).exec r s = (some w, s') := by
  obtain ⟨-, hunbundles, -⟩ := ofDigester_inv hst hwords hb h
  have hanswer : (Run.orNull (b.construct vs)).exec r s = (some w, s') := by
    rw [Run.exec_orNull, hw]
    rfl
  have hruns : Digest.Runs b r (digester r v) s [(vs, w)] w s' := hbound ▸ .bind hanswer .done
  have hne : w ≠ .null := hunbundles.carries.ne_null vs r s w (by rw [hw])
  exact (matchCarrier_ofDigester_iff hst hwords hb h hruns).mpr ⟨hv, List.cons_ne_nil _ _, hne, rfl, rfl⟩

theorem ofDigester_ok {d : Descriptor} (digester : Digester) (hst : st.Reachable)
    (hwords : d.bindings.length < 2 ^ 64) (hb : (Bundle.ofTypes d.bindings).exec st = (.ok b, u)) :
    ∃ p st', (ofDigester d digester).exec st = (.ok p, st') := by
  have hcarries := Bundle.carries_of_ofTypes hst hwords hb
  unfold ofDigester
  rw [Build.exec_bind, hb]
  exact exists_made_of_bundle hcarries _ u

/-! ## Lazy projections -/

theorem projected_ok {target : Ty} {extractors : List Handle} {d : Descriptor}
    (h : projected r target extractors = .ok d) :
    d = ⟨target, extractors.map (·.sig.ret)⟩ ∧ ∀ e ∈ extractors, e.sig.params = [target] := by
  unfold projected at h
  split at h
  · cases h
  · rename_i hfind
    refine ⟨(Except.ok.inj h).symm, ?_⟩
    intro e he
    obtain ⟨i, hi⟩ := List.mem_iff_getElem?.mp he
    simpa using List.find?_eq_none.mp hfind (e, i) (List.mk_mem_zipIdx_iff_getElem?.mpr hi)

/-- The carrier of a lazy projection is the target, and its components extract from it. -/
theorem ofLazyProjection_inv {target : Ty} {extractors : List Handle}
    (h : (ofLazyProjection target extractors).exec st = (.ok p, st')) :
    ∃ tryMatch id, p.MadeOf ⟨target, extractors.map (·.sig.ret)⟩ tryMatch extractors ∧
      tryMatch.body = Body.identity id ∧ ∀ e ∈ extractors, e.sig.params = [target] := by
  unfold ofLazyProjection at h
  rw [Build.exec_bind, Build.exec_registry] at h
  obtain ⟨d, _, hd, h⟩ := Build.exec_bind_ok h
  obtain ⟨hd, rfl⟩ := Build.exec_ofExcept_ok hd
  obtain ⟨rfl, htakes⟩ := projected_ok hd
  obtain ⟨tryMatch, u, id, hbody, h⟩ := Build.exec_handle_bind_ok h
  exact ⟨tryMatch, id, (make_ok h).2.1, hbody, htakes⟩

/-! ## Eager projections -/

/-- What an eager projection is made of. -/
structure EagerOf (p : Pattern) (target : Ty) (extractors : List Handle) (b : Bundle) : Prop where
  descriptor_eq : p.descriptor = ⟨target, extractors.map (·.sig.ret)⟩
  takes : ∀ e ∈ extractors, e.sig.params = [target]
  attempt_null : p.tryMatch.invoke [.null] = pure .null
  attempt : ∀ v, v ≠ .null → p.tryMatch.invoke [v] = Run.orNull (extract extractors b.constructor v)
  unbundles : b.Carries p.descriptor.bindings → p.Unbundles b

theorem eagerOf_of_ofEagerProjection {target : Ty} {extractors : List Handle}
    (h : (ofEagerProjection target extractors).exec st = (.ok p, st')) :
    ∃ b u, (Bundle.ofTypes (extractors.map (·.sig.ret))).exec st = (.ok b, u) ∧
      EagerOf p target extractors b := by
  unfold ofEagerProjection at h
  rw [Build.exec_bind, Build.exec_registry] at h
  obtain ⟨d, _, hd, h⟩ := Build.exec_bind_ok h
  obtain ⟨hd, rfl⟩ := Build.exec_ofExcept_ok hd
  obtain ⟨rfl, htakes⟩ := projected_ok hd
  obtain ⟨b, u, hb, h⟩ := Build.exec_bind_ok h
  obtain ⟨hdescriptor, hunbundles, htry⟩ := made_of_bundle h
  refine ⟨b, u, hb, hdescriptor, htakes, htry .null, ?_, ?_⟩
  · intro v hv
    rw [htry v]
    cases v with
    | null => exact absurd rfl hv
    | _ => rfl
  · rw [hdescriptor]
    exact hunbundles

/-- A match of an eager projection constructs a carrier of what the extractors gave. -/
theorem EagerOf.extracted {target : Ty} {extractors : List Handle} (he : EagerOf p target extractors b)
    (hmatch : (p.matchCarrier v).exec r s = (some w, s')) :
    v ≠ .null ∧ ∃ vs t, Run.exec (extractors.mapM fun e => e.invoke [v]) r s = (some vs, t) ∧
      ((b.constructor.invoke vs).exec r t).1 = some w := by
  obtain ⟨hattempt, hne⟩ := exec_matchCarrier_iff.mp hmatch
  have hv : v ≠ .null := by
    rintro rfl
    rw [he.attempt_null] at hattempt
    cases hattempt
    exact hne rfl
  rw [he.attempt v hv] at hattempt
  obtain ⟨vs, t, hvs, hw⟩ := Run.exec_bind_some (Run.exec_of_orNull hattempt hne)
  exact ⟨hv, vs, t, hvs, by rw [hw]⟩

/-- A carrier is a bundle of what the extractors gave, and the components are its own. -/
theorem EagerOf.bundled {target : Ty} {extractors : List Handle} (he : EagerOf p target extractors b)
    (hb : b.Given p.descriptor.bindings) (hmatch : (p.matchCarrier v).exec r s = (some w, s')) :
    ∃ vs t, Run.exec (extractors.mapM fun e => e.invoke [v]) r s = (some vs, t) ∧
      ((b.construct vs).exec r t).1 = some w ∧ p.Unbundles b := by
  obtain ⟨-, vs, t, hvs, hw⟩ := he.extracted hmatch
  have hunbundles := he.unbundles (hb.carries (hb.words hw))
  have hlen : vs.length = p.descriptor.bindings.length := by
    rw [Run.exec_mapM_some hvs, he.descriptor_eq, List.length_map]
  exact ⟨vs, t, hvs, by rwa [hunbundles.carries.construct_eq hlen], hunbundles⟩

theorem ofEagerProjection_inv {target : Ty} {extractors : List Handle} (hst : st.Reachable)
    (hwords : extractors.length < 2 ^ 64)
    (hb : (Bundle.ofTypes (extractors.map (·.sig.ret))).exec st = (.ok b, u))
    (h : (ofEagerProjection target extractors).exec st = (.ok p, st')) :
    p.descriptor = ⟨target, extractors.map (·.sig.ret)⟩ ∧ p.Unbundles b ∧
      p.tryMatch.invoke [.null] = pure .null ∧
      ∀ v, v ≠ .null → p.tryMatch.invoke [v] = Run.orNull (extract extractors b.constructor v) := by
  obtain ⟨b', u', hb', he⟩ := eagerOf_of_ofEagerProjection h
  rw [hb] at hb'
  cases hb'
  refine ⟨he.descriptor_eq, he.unbundles ?_, he.attempt_null, he.attempt⟩
  rw [he.descriptor_eq]
  exact Bundle.carries_of_ofTypes hst (by rwa [List.length_map]) hb

/-- The constructor gets one value from each extractor, so the count never fails a match. -/
theorem extract_eq {extractors : List Handle} (hb : b.Carries (extractors.map (·.sig.ret))) (v : Value) :
    extract extractors b.constructor v = (extractors.mapM fun e => e.invoke [v]) >>= b.construct := by
  apply Run.eq_of_exec
  intro r s
  unfold extract
  rcases hvs : Run.exec (extractors.mapM fun e => e.invoke [v]) r s with ⟨_ | vs, t⟩
  · rw [Run.exec_bind_of_none hvs, Run.exec_bind_of_none hvs]
  · rw [Run.exec_bind_of_some hvs, Run.exec_bind_of_some hvs,
      hb.construct_eq (by rw [Run.exec_mapM_some hvs, List.length_map])]

/-- A match of an eager projection bundles what the extractors gave. -/
theorem matchCarrier_ofEagerProjection {target : Ty} {extractors : List Handle} (hst : st.Reachable)
    (hwords : extractors.length < 2 ^ 64)
    (hb : (Bundle.ofTypes (extractors.map (·.sig.ret))).exec st = (.ok b, u))
    (h : (ofEagerProjection target extractors).exec st = (.ok p, st'))
    (hmatch : (p.matchCarrier v).exec r s = (some w, s')) :
    ∃ vs t, Run.exec (extractors.mapM fun e => e.invoke [v]) r s = (some vs, t) ∧
      ((b.construct vs).exec r t).1 = some w := by
  obtain ⟨b', u', hb', he⟩ := eagerOf_of_ofEagerProjection h
  rw [hb] at hb'
  cases hb'
  obtain ⟨-, vs, t, hvs, hw⟩ := he.extracted hmatch
  have hcarries := Bundle.carries_of_ofTypes hst (by rwa [List.length_map]) hb
  refine ⟨vs, t, hvs, ?_⟩
  rwa [hcarries.construct_eq (by rw [Run.exec_mapM_some hvs, List.length_map])]

/-! ## Records -/

/-- One handle for each component of the class: it reads the field at its place, of
objects of exactly that class. -/
structure FieldReaders (c : ClassId) (parts : List Component) (extractors : List Handle) : Prop where
  sigs_eq : extractors.map (·.sig) = parts.map fun part => .unary (.ref c) part.ty
  reads : ∀ (i : Nat) e, extractors[i]? = some e → e.Reads (fieldOf c i)

theorem FieldReaders.sig_eq {c : ClassId} {parts : List Component} {extractors : List Handle} {i : Nat} {e : Handle}
    (h : FieldReaders c parts extractors) (he : extractors[i]? = some e) :
    ∃ part, parts[i]? = some part ∧ e.sig = .unary (.ref c) part.ty := by
  have hsig : (extractors.map (·.sig))[i]? = some e.sig := by rw [List.getElem?_map, he, Option.map_some]
  rw [h.sigs_eq, List.getElem?_map] at hsig
  obtain ⟨part, hpart, hsig⟩ := Option.map_eq_some_iff.mp hsig
  exact ⟨part, hpart, hsig.symm⟩

theorem FieldReaders.rets_eq {c : ClassId} {parts : List Component} {extractors : List Handle}
    (h : FieldReaders c parts extractors) : extractors.map (·.sig.ret) = parts.map (·.ty) := by
  have hrets := congrArg (List.map (·.ret)) h.sigs_eq
  rwa [List.map_map, List.map_map] at hrets

theorem mints_fieldReaders (c : ClassId) (parts : List Component) :
    (parts.zipIdx.mapM fun ((part, i) : Component × Nat) =>
      Build.unary (.ref c) part.ty fun v => Run.ofOption (fieldOf c i v)).Mints (FieldReaders c parts) := by
  have each : ∀ x ∈ parts.zipIdx, (Build.unary (.ref c) x.1.ty fun v => Run.ofOption (fieldOf c x.2 v)).Mints
      fun e => e.sig = .unary (.ref c) x.1.ty ∧ e.Reads (fieldOf c x.2) := fun _ _ => Build.mints_reader _ _ _
  apply (Build.mints_mapM each).mono
  intro extractors hall
  refine ⟨?_, ?_⟩
  · calc extractors.map (·.sig)
      _ = parts.zipIdx.map fun x => .unary (.ref c) x.1.ty :=
        (map_eq_of_forall₂ (hall.imp fun x e he => he.1.symm)).symm
      _ = (parts.zipIdx.map Prod.fst).map fun part => .unary (.ref c) part.ty := by
        rw [List.map_map]
        rfl
      _ = parts.map fun part => .unary (.ref c) part.ty := by rw [List.zipIdx_map_fst]
  · intro i e he
    obtain ⟨x, hx, -, hreads⟩ := getElem?_of_forall₂_right hall he
    rw [List.getElem?_zipIdx] at hx
    obtain ⟨part, -, rfl⟩ := Option.map_eq_some_iff.mp hx
    simpa using hreads

/-- A record pattern is the eager projection on the readers of its fields. -/
theorem ofRecord_inv {c : ClassId} (hst : st.Reachable) (h : (ofRecord c).exec st = (.ok p, st')) :
    ∃ parts extractors u, (st.registry.info c).components? = some parts ∧ FieldReaders c parts extractors ∧
      u.Reachable ∧ (ofEagerProjection (.ref c) extractors).exec u = (.ok p, st') := by
  unfold ofRecord at h
  rw [Build.exec_bind, Build.exec_registry] at h
  simp only at h
  cases hc : (st.registry.info c).components? with
  | none =>
    rw [hc] at h
    cases h
  | some parts =>
    rw [hc] at h
    obtain ⟨extractors, u, hextractors, h⟩ := Build.exec_bind_ok h
    have hu := (Build.steps_mapM (fun _ => Build.steps_handle _ _) _).reachable hst hextractors
    exact ⟨parts, extractors, u, rfl, ((mints_fieldReaders c parts).ok hextractors).1, hu, h⟩

/-! ## The law -/

/-- A bundle takes one value for each type, if a single value is accepted by its
type, or all scalars among several ones are. So it takes just the values that are
accepted, unless a reference slips through. The components of a matched digester
that returns what binding some values gave, and those of a matched eager
projection, show the values that slipped through, and no others that their types
refuse. -/
theorem only_references_among_several_slip_through (hst : st.Reachable) (hwords : ts.length < 2 ^ 64)
    (hb : (Bundle.ofTypes ts).exec st = (.ok b, u)) :
    (∀ r s vs, (((b.construct vs).exec r s).1.isSome ↔ Bundle.Checked r ts vs) ∧
      ((((b.construct vs).exec r s).1.isSome ↔ Bundle.Accepted r ts vs) ↔
        ¬ (Bundle.Checked r ts vs ∧
          ∃ (i : Nat) (t : Ty) (v : Value), ts[i]? = some t ∧ vs[i]? = some v ∧ Bundle.Slips r ts t v))) ∧
    (∀ target digester p st', (ofDigester ⟨target, ts⟩ digester).exec st = (.ok p, st') →
      ∀ r s v w s', (p.matchCarrier v).exec r s = (some w, s') →
        ∃ binds, Digest.Runs b r (digester r v) s binds w s' ∧ ∀ vs, (vs, w) ∈ binds →
          ∀ (i : Nat) t x, ts[i]? = some t → vs[i]? = some x →
            ∃ y, p.Exposes i w y ∧ (t.accepts r y = false ↔ Bundle.Slips r ts t x)) ∧
    (∀ target extractors p st', extractors.map (·.sig.ret) = ts →
      (ofEagerProjection target extractors).exec st = (.ok p, st') →
      ∀ r s v w s', (p.matchCarrier v).exec r s = (some w, s') →
        ∃ vs s'', Run.exec (extractors.mapM fun e => e.invoke [v]) r s = (some vs, s'') ∧
          ∀ (i : Nat) t x, ts[i]? = some t → vs[i]? = some x →
            ∃ y, p.Exposes i w y ∧ (t.accepts r y = false ↔ Bundle.Slips r ts t x)) := by
  have hcarries := Bundle.carries_of_ofTypes hst hwords hb
  refine ⟨?_, ?_, ?_⟩
  · intro r s vs
    refine ⟨hcarries.takes vs r s, ?_⟩
    rw [hcarries.takes vs r s]
    refine ⟨?_, ?_⟩
    · rintro hiff ⟨hchecked, hslips⟩
      exact (Bundle.accepted_iff hchecked).mp (hiff.mp hchecked) hslips
    · intro hnone
      refine ⟨?_, fun haccepted => haccepted.checked⟩
      intro hchecked
      apply (Bundle.accepted_iff hchecked).mpr
      intro hslips
      exact hnone ⟨hchecked, hslips⟩
  · intro target digester p st' h r s v w s' hmatch
    obtain ⟨hdescriptor, hunbundles, -⟩ := ofDigester_inv hst hwords hb h
    obtain ⟨hne, binds, -, hruns⟩ := matchCarrier_ofDigester hst hwords hb h hmatch
    refine ⟨binds, hruns, ?_⟩
    intro vs hmem i t x ht hx
    obtain ⟨s₀, hw⟩ := hruns.construct_of_mem hmem hne
    have hexposes := hunbundles.exposes hw (t := t) (by rw [hdescriptor]; exact ht) hx
    rwa [hdescriptor] at hexposes
  · rintro target extractors p st' rfl h r s v w s' hmatch
    rw [List.length_map] at hwords
    obtain ⟨hdescriptor, hunbundles, -⟩ := ofEagerProjection_inv hst hwords hb h
    obtain ⟨vs, s'', hvs, hw⟩ := matchCarrier_ofEagerProjection hst hwords hb h hmatch
    refine ⟨vs, s'', hvs, ?_⟩
    intro i t x ht hx
    have hexposes := hunbundles.exposes hw (t := t) (by rw [hdescriptor]; exact ht) hx
    rwa [hdescriptor] at hexposes

/-- The law on two strings. -/
theorem only_references_slip_through_two_strings :
    ∃ b u, (Bundle.ofTypes [.string, .string]).exec (.initial []) = (.ok b, u) ∧
      ∀ r s vs, (((b.construct vs).exec r s).1.isSome ↔ Bundle.Checked r [.string, .string] vs) ∧
        ((((b.construct vs).exec r s).1.isSome ↔ Bundle.Accepted r [.string, .string] vs) ↔
          ¬ (Bundle.Checked r [.string, .string] vs ∧
            ∃ (i : Nat) (t : Ty) (v : Value), [Ty.string, .string][i]? = some t ∧ vs[i]? = some v ∧
              Bundle.Slips r [.string, .string] t v)) := by
  obtain ⟨b, u, hb⟩ := Bundle.two_strings_ok (Store.reachable_initial []) rfl
  have law := only_references_among_several_slip_through (Store.reachable_initial []) (by decide) hb
  exact ⟨b, u, hb, law.1⟩

/-- A digester binds two numbers where two strings are declared: the target matches,
and the first component shows a number. -/
theorem numbers_slip_through_two_strings :
    ∃ b u p st', (Bundle.ofTypes [.string, .string]).exec (.initial []) = (.ok b, u) ∧
      ((b.construct [.int 1, .int 2]).exec .initial .initial).1.isSome ∧
      ¬ Bundle.Accepted .initial [.string, .string] [.int 1, .int 2] ∧
      (ofDigester ⟨.object, [.string, .string]⟩ (.binding [.value (.int 1), .value (.int 2)])).exec
        (.initial []) = (.ok p, st') ∧
      ∃ w s', (p.matchCarrier (.str "x")).exec .initial .initial = (some w, s') ∧
        p.Exposes 0 w (.int 1) ∧ Ty.string.accepts .initial (.int 1) = false := by
  have hst := Store.reachable_initial []
  have hrefused : Ty.string.accepts .initial (.int 1) = false := by decide
  obtain ⟨b, u, hb⟩ := Bundle.two_strings_ok hst rfl
  have hcarries := Bundle.carries_of_ofTypes hst (by decide) hb
  have hchecked : Bundle.Checked .initial [.string, .string] [.int 1, .int 2] := by
    refine ⟨rfl, ?_⟩
    intro i t v ht _ hchecked
    have hreference : t.isScalar = false := by
      match i with
      | 0 => cases ht; rfl
      | 1 => cases ht; rfl
      | _ + 2 => cases ht
    rw [hreference] at hchecked
    simp at hchecked
  obtain ⟨p, st', hp⟩ := ofDigester_ok (d := ⟨.object, [.string, .string]⟩)
    (.binding [.value (.int 1), .value (.int 2)]) hst (by decide) hb
  have hsome := (hcarries.takes _ .initial .initial).mpr hchecked
  obtain ⟨w, hw⟩ := Option.isSome_iff_exists.mp hsome
  obtain ⟨s', hconstruct⟩ : ∃ s', (b.construct [.int 1, .int 2]).exec .initial .initial = (some w, s') :=
    ⟨_, Prod.ext hw rfl⟩
  have hmatch : (p.matchCarrier (.str "x")).exec .initial .initial = (some w, s') :=
    matchCarrier_of_bound (d := ⟨.object, [.string, .string]⟩) hst (by decide) hb hp Value.noConfusion rfl
      hconstruct
  obtain ⟨hdescriptor, hunbundles, -⟩ :=
    ofDigester_inv (d := ⟨.object, [.string, .string]⟩) hst (by decide) hb hp
  refine ⟨b, u, p, st', hb, hsome, ?_, hp, w, s', hmatch, ?_, hrefused⟩
  · intro haccepted
    have := haccepted.accepts 0 .string (.int 1) rfl rfl
    rw [hrefused] at this
    cases this
  · have hi : 0 < p.components.length := by
      have hpaired := (builds_ofDigester _ _).paired _ _ _ hp
      rw [hpaired.count, hdescriptor]
      decide
    have hcomponent := List.getElem?_eq_getElem hi
    have hshows := hunbundles.shows hw hcomponent (v := .int 1) rfl
    rw [hdescriptor] at hshows
    exact ⟨_, hcomponent, hshows⟩

end Pattern

end PatternDispatch

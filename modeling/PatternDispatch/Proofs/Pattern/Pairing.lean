-- The laws of paired patterns. Pairing checks that there is a component for each
-- binding, and changes signatures only; what a pattern matches and binds comes
-- from the bodies of its handles.
import PatternDispatch.Pattern.Adapt
import PatternDispatch.Proofs.Pattern.Bundle

namespace PatternDispatch

/-- The guard between an old and a new target type that are related. -/
def Guard.from (old new : Ty) : Guard :=
  match old, new with
  | .scalar k, .ref _ => .isInstance k.boxed
  | _, _ => .isNullOr old

/-- The classes decide whether there is a guard, and not which one. -/
theorem Guard.between?_some {r : Registry} {old new : Ty} {g : Guard} (h : between? r old new = some g) :
    g = Guard.from old new := by
  unfold between? at h
  unfold Guard.from
  cases old <;> cases new <;> simp only at h ⊢ <;> split at h <;> cases h <;> rfl

namespace Pattern

/-- Every pattern of a program was paired. -/
def Paired (p : Pattern) : Prop := ∃ r d tryMatch components, pair r d tryMatch components = .ok p

/-! ## What pairing keeps -/

section Pair

variable {r : Registry} {d : Descriptor} {tryMatch : Handle} {components : List Handle} {p : Pattern}
  {st st' : Store}

/-- The pattern has the descriptor, and the bodies of the handles. -/
structure MadeOf (p : Pattern) (d : Descriptor) (tryMatch : Handle) (components : List Handle) : Prop where
  descriptor_eq : p.descriptor = d
  tryMatch_eq : p.tryMatch.body = tryMatch.body
  components_eq : p.components.map (·.body) = components.map (·.body)
  count : components.length = d.bindings.length

/-- The signatures of a match attempt and of its components, with this type for the
carrier between them. -/
structure Fits (d : Descriptor) (carrier : Ty) (tryMatch : Signature) (components : List Signature) : Prop where
  tryMatch_eq : tryMatch = .unary d.target carrier
  components_eq : components = d.bindings.map (Signature.unary carrier)

theorem componentFault?_eq_none_iff {carrier : Ty} {binding : Option Ty} {i : Nat} {sig : Signature} :
    componentFault? r carrier binding i sig = none ↔ sig.params = [carrier] ∧ some sig.ret = binding := by
  unfold componentFault?
  split
  · simp [*]
  · split <;> simp_all

/-- There is nothing wrong with the parts just when their signatures fit. -/
theorem fault?_eq_none_iff {sig : Signature} {sigs : List Signature} :
    fault? r d sig sigs = none ↔ Fits d sig.ret sig sigs := by
  unfold fault?
  constructor
  · intro h
    split at h
    · cases h
    · rename_i hcount
      split at h
      · cases h
      · rename_i hparams
        have heach : ∀ (i : Nat) sig', sigs[i]? = some sig' →
            sig'.params = [sig.ret] ∧ some sig'.ret = d.bindings[i]? := fun i sig' hi =>
          componentFault?_eq_none_iff.mp
            (List.findSome?_eq_none_iff.mp h (sig', i) (List.mk_mem_zipIdx_iff_getElem?.mpr hi))
        refine ⟨?_, ?_⟩
        · rw [Signature.unary, ← not_not.mp hparams]
        · apply List.ext_getElem?
          intro i
          rw [List.getElem?_map]
          cases hi : sigs[i]? with
          | none =>
            have hlen := List.getElem?_eq_none_iff.mp hi
            rw [List.getElem?_eq_none (by omega)]
            rfl
          | some sig' =>
            obtain ⟨hparams', hret⟩ := heach i sig' hi
            rw [← hret, Option.map_some, Signature.unary, ← hparams']
  · rintro ⟨htry, rfl⟩
    rw [if_neg (by simp), if_neg (by rw [htry]; simp [Signature.unary]), List.findSome?_eq_none_iff]
    rintro ⟨sig', i⟩ hmem
    have hi := List.mk_mem_zipIdx_iff_getElem?.mp hmem
    rw [List.getElem?_map] at hi
    obtain ⟨t, ht, rfl⟩ := Option.map_eq_some_iff.mp hi
    exact componentFault?_eq_none_iff.mpr ⟨rfl, ht.symm⟩

/-- A handle can get any signature with as many parameters. -/
theorem retype_ok {h : Handle} {sig : Signature} (harity : sig.arity = h.sig.arity) :
    h.retype r sig = .ok { h with sig } := by
  unfold Handle.retype
  rw [if_pos harity]

/-- Nothing but the types of the carrier changes when parts that fit are paired. -/
theorem pair_of_fits (h : Fits d tryMatch.sig.ret tryMatch.sig (components.map (·.sig))) :
    pair r d tryMatch components =
      .ok ⟨d, { tryMatch with sig := tryMatch.sig.withRet (erased tryMatch.sig.ret) },
        components.map fun c => { c with sig := c.sig.withParam 0 (erased tryMatch.sig.ret) }⟩ := by
  have hattempt : tryMatch.retype r (tryMatch.sig.withRet (erased tryMatch.sig.ret)) = .ok _ := retype_ok rfl
  have hreader : ∀ c : Handle, c.retype r (c.sig.withParam 0 (erased tryMatch.sig.ret)) = .ok _ :=
    fun c => retype_ok (by simp [Signature.arity, Signature.withParam])
  unfold pair
  rw [fault?_eq_none_iff.mpr h]
  simp only [hattempt, hreader]
  exact congrArg (Except.map _) List.mapM_pure

theorem fits_of_pair (h : pair r d tryMatch components = .ok p) :
    Fits d tryMatch.sig.ret tryMatch.sig (components.map (·.sig)) := by
  unfold pair at h
  split at h
  · cases h
  · exact fault?_eq_none_iff.mp ‹_›

theorem of_pair (h : pair r d tryMatch components = .ok p) : p.MadeOf d tryMatch components := by
  have hfits := fits_of_pair h
  rw [pair_of_fits hfits] at h
  cases h
  refine ⟨rfl, rfl, ?_, ?_⟩
  · rw [List.map_map]
    rfl
  · simpa using congrArg List.length hfits.components_eq

theorem Paired.count (hp : p.Paired) : p.components.length = p.descriptor.bindings.length := by
  obtain ⟨r, d, tryMatch, components, h⟩ := hp
  have hof := of_pair h
  have hlen := congrArg List.length hof.components_eq
  rw [List.length_map, List.length_map] at hlen
  rw [hlen, hof.count, hof.descriptor_eq]

theorem make_ok (h : (make d tryMatch components).exec st = (.ok p, st')) :
    p.Paired ∧ p.MadeOf d tryMatch components ∧ st' = st := by
  unfold make at h
  rw [Build.exec_bind, Build.exec_registry] at h
  obtain ⟨hpair, rfl⟩ := Build.exec_ofExcept_ok h
  exact ⟨⟨_, _, _, _, hpair⟩, of_pair hpair, rfl⟩

/-- Parts that fit can be paired over any store. -/
theorem make_of_fits {carrier : Ty} (h : Fits d carrier tryMatch.sig (components.map (·.sig))) (st : Store) :
    ∃ p, (make d tryMatch components).exec st = (.ok p, st) := by
  have hret : tryMatch.sig.ret = carrier := by rw [h.tryMatch_eq]; rfl
  rw [← hret] at h
  unfold make
  rw [Build.exec_bind, Build.exec_registry]
  simp only [Build.exec_ofExcept, pair_of_fits h]
  exact ⟨_, rfl⟩

theorem mints_make {carrier : Ty} (h : Fits d carrier tryMatch.sig (components.map (·.sig))) :
    (make d tryMatch components).Mints fun p => p.Paired ∧ p.descriptor = d := by
  intro st
  obtain ⟨p, hp⟩ := make_of_fits h st
  obtain ⟨hpaired, hof, -⟩ := make_ok hp
  exact ⟨p, st.run, hp, hpaired, hof.descriptor_eq⟩

/-! ## Builds of patterns -/

/-- The build takes steps, and what it gives was paired. -/
structure Builds (x : Build Pattern) : Prop where
  steps : x.Steps
  paired : ∀ st p st', x.exec st = (.ok p, st') → p.Paired

theorem builds_make (d : Descriptor) (tryMatch : Handle) (components : List Handle) :
    Builds (make d tryMatch components) := by
  refine ⟨Build.steps_registry.bind fun _ => Build.steps_ofExcept _, ?_⟩
  intro st p st' h
  exact (make_ok h).1

theorem builds_throw (e : BuildError) : Builds (throw e) := by
  refine ⟨Build.steps_throw e, ?_⟩
  intro st p st' h
  cases h

theorem Builds.after {α : Type} {x : Build α} {f : α → Build Pattern} (hx : x.Steps)
    (hf : ∀ a, Builds (f a)) : Builds (x >>= f) := by
  refine ⟨hx.bind fun a => (hf a).steps, ?_⟩
  intro st p st' h
  obtain ⟨a, u, -, h⟩ := Build.exec_bind_ok h
  exact (hf a).paired u p st' h

end Pair

/-! ## Matching -/

variable {p q : Pattern} {r : Registry} {s t : RunState}

theorem bindings_congr (h : p.components.map (·.body) = q.components.map (·.body)) :
    p.bindings = q.bindings := by
  have hbodies : ∀ (p : Pattern) c, p.bindings c = (p.components.map (·.body)).mapM (·.run [c]) := by
    intro p c
    rw [List.mapM_map]
    rfl
  funext c
  rw [hbodies p, hbodies q, h]

/-- The bindings of a pattern are what the components that it was made of give. -/
theorem MadeOf.bindings_eq {d : Descriptor} {tryMatch : Handle} {components : List Handle}
    (hof : p.MadeOf d tryMatch components) (w : Value) :
    p.bindings w = components.mapM fun e => e.invoke [w] :=
  congrFun (bindings_congr (q := ⟨d, tryMatch, components⟩) hof.components_eq) w

theorem MadeOf.attempt_eq {d : Descriptor} {tryMatch : Handle} {components : List Handle}
    (hof : p.MadeOf d tryMatch components) (v : Value) : p.tryMatch.invoke [v] = tryMatch.invoke [v] := by
  rw [Handle.invoke, hof.tryMatch_eq, Handle.invoke]

theorem matchBindings_congr (htry : p.tryMatch.body.run = q.tryMatch.body.run)
    (hcomponents : p.components.map (·.body) = q.components.map (·.body)) :
    p.matchBindings = q.matchBindings := by
  funext v
  unfold matchBindings matchCarrier Handle.invoke
  rw [htry, bindings_congr hcomponents]

theorem length_matchBindings {v : Value} {vs : List Value}
    (h : (p.matchBindings v).exec r s = (some vs, t)) : vs.length = p.components.length := by
  obtain ⟨c, u, -, h⟩ := Run.exec_bind_some h
  exact Run.exec_mapM_some h

/-- A target matches with what its match attempt gives, unless that is null. -/
theorem exec_matchCarrier_iff {v w : Value} :
    (p.matchCarrier v).exec r s = (some w, t) ↔
      (p.tryMatch.invoke [v]).exec r s = (some w, t) ∧ w ≠ .null := by
  unfold matchCarrier
  refine ⟨?_, ?_⟩
  · intro h
    obtain ⟨w', u, hattempt, h⟩ := Run.exec_bind_some h
    cases w' with
    | null => cases h
    | _ =>
      cases h
      exact ⟨hattempt, Value.noConfusion⟩
  · rintro ⟨hattempt, hne⟩
    rw [Run.exec_bind_of_some hattempt]
    cases w with
    | null => exact absurd rfl hne
    | _ => rfl

/-- No carrier comes out of a match attempt that gives null or does not match itself. -/
theorem exec_matchCarrier_of_null {v : Value} {found : Option Value}
    (hattempt : (p.tryMatch.invoke [v]).exec r s = (found, t)) (hnull : found.getD .null = .null) :
    (p.matchCarrier v).exec r s = (none, t) := by
  unfold matchCarrier
  cases found with
  | none => exact Run.exec_bind_of_none hattempt
  | some w =>
    obtain rfl : w = .null := hnull
    exact Run.exec_bind_of_some hattempt

/-- Testing a carrier for null leaves the run where the match attempt left it. -/
theorem exec_matchCarrier_snd (p : Pattern) (v : Value) (r : Registry) (s : RunState) :
    ((p.matchCarrier v).exec r s).2 = ((p.tryMatch.invoke [v]).exec r s).2 := by
  unfold matchCarrier
  rcases hattempt : (p.tryMatch.invoke [v]).exec r s with ⟨_ | w, t⟩
  · rw [Run.exec_bind_of_none hattempt]
  · rw [Run.exec_bind_of_some hattempt]
    cases w <;> rfl

theorem not_matches_null (h : p.tryMatch.invoke [.null] = pure .null) :
    (p.matchCarrier .null).exec r s = (none, s) := by
  unfold matchCarrier
  rw [h]
  rfl

/-- A match attempt whose carriers are not null gives its carrier. -/
theorem exec_matchCarrier {v : Value} {attempt : Run Value}
    (htry : p.tryMatch.invoke [v] = Run.orNull attempt)
    (hcarrier : ∀ w, (attempt.exec r s).1 = some w → w ≠ .null) :
    (p.matchCarrier v).exec r s = attempt.exec r s := by
  rcases h : attempt.exec r s with ⟨_ | w, t⟩
  · unfold matchCarrier
    rw [htry, Run.exec_bind, Run.exec_orNull, h]
    rfl
  · apply exec_matchCarrier_iff.mpr
    refine ⟨?_, hcarrier w (by rw [h])⟩
    rw [htry, Run.exec_orNull, h]
    rfl

theorem exec_isMatch (p : Pattern) (v : Value) (r : Registry) (s : RunState) :
    (p.isMatch v).exec r s =
      (some ((p.matchCarrier v).exec r s).1.isSome, ((p.matchCarrier v).exec r s).2) := by
  unfold isMatch
  rw [Run.exec_bind, Run.exec_attempt]
  rfl

/-- A pattern whose match attempt gives null of null does not match null. -/
theorem match_of_null (h : p.tryMatch.invoke [.null] = pure .null) :
    ((p.matchBindings .null).exec r s).1 = none ∧ ((p.isMatch .null).exec r s).1 = some false := by
  have hcarrier := not_matches_null (r := r) (s := s) h
  refine ⟨?_, ?_⟩
  · rw [matchBindings, Run.exec_bind_of_none hcarrier]
  · rw [exec_isMatch, hcarrier]
    rfl

/-! ## Components of a bundle -/

/-- The components are those of a bundle that carries the bindings. -/
structure Unbundles (p : Pattern) (b : Bundle) : Prop where
  carries : b.Carries p.descriptor.bindings
  components_eq : p.components.map (·.body) = b.components.map (·.body)

variable {b : Bundle} {vs : List Value} {w : Value}

/-- A pattern that is made of a match attempt and the components of a bundle. -/
theorem made_of_bundle {d : Descriptor} {attempt : Value → Run Value} {st st' : Store}
    (h : (Build.unary d.target b.carrierType attempt >>= fun tryMatch => make d tryMatch b.components).exec st =
      (.ok p, st')) :
    p.descriptor = d ∧ (b.Carries d.bindings → p.Unbundles b) ∧ ∀ v, p.tryMatch.invoke [v] = attempt v := by
  obtain ⟨tryMatch, u, id, hbody, h⟩ := Build.exec_handle_bind_ok h
  obtain ⟨-, hof, -⟩ := make_ok h
  refine ⟨hof.descriptor_eq, ?_, ?_⟩
  · intro hcarries
    exact ⟨hof.descriptor_eq ▸ hcarries, hof.components_eq⟩
  · intro v
    rw [Handle.invoke, hof.tryMatch_eq, hbody]
    rfl

/-- A match attempt that gives bundles and the components of the bundle pair. -/
theorem mints_bundled {d : Descriptor}
    (hsigs : b.components.map (·.sig) = d.bindings.map (Signature.unary b.carrierType))
    (attempt : Value → Run Value) :
    (Build.unary d.target b.carrierType attempt >>= fun tryMatch => make d tryMatch b.components).Mints
      fun p => p.Paired ∧ p.descriptor = d := by
  apply (Build.mints_handle _ _).bind
  rintro tryMatch ⟨htry, -⟩
  exact mints_make ⟨htry, hsigs⟩

theorem exists_made_of_bundle {d : Descriptor} (hb : b.Carries d.bindings) (attempt : Value → Run Value)
    (st : Store) :
    ∃ p st', (Build.unary d.target b.carrierType attempt >>= fun tryMatch =>
      make d tryMatch b.components).exec st = (.ok p, st') := by
  obtain ⟨p, run, hp, -⟩ := mints_bundled hb.sigs_eq attempt st
  exact ⟨p, _, hp⟩

theorem Unbundles.count (hp : p.Unbundles b) : p.components.length = p.descriptor.bindings.length := by
  have hlen := congrArg List.length hp.components_eq
  rwa [List.length_map, List.length_map, hp.carries.count] at hlen

/-- Component `i` shows the value that was bundled at `i`. -/
theorem Unbundles.shows (hp : p.Unbundles b) (hw : ((b.construct vs).exec r s).1 = some w) {i : Nat}
    {h : Handle} {v : Value} (hi : p.components[i]? = some h) (hv : vs[i]? = some v) (r' : Registry)
    (s' : RunState) :
    (h.invoke [w]).exec r' s' = (some (Bundle.shown p.descriptor.bindings v), s') := by
  have hbodies := congrArg (·[i]?) hp.components_eq
  simp only [List.getElem?_map, hi, Option.map_some] at hbodies
  obtain ⟨h', hi', hbody⟩ := Option.map_eq_some_iff.mp hbodies.symm
  have hshows := hp.carries.shows vs r s w hw i h' v hi' hv r' s'
  rw [Handle.invoke, hbody] at hshows
  exact hshows

/-- Reading a component out of a bundle leaves the run as it is. -/
theorem Unbundles.exec_read_snd (hp : p.Unbundles b) (hw : ((b.construct vs).exec r s).1 = some w) {h : Handle}
    (hh : h ∈ p.components) (r' : Registry) (s' : RunState) : ((h.invoke [w]).exec r' s').2 = s' := by
  obtain ⟨i, hi⟩ := List.mem_iff_getElem?.mp hh
  have hchecked := (hp.carries.takes vs r s).mp (by rw [hw]; rfl)
  have hlt : i < vs.length := by
    rw [hchecked.length_eq, ← hp.count]
    exact (List.getElem?_eq_some_iff.mp hi).1
  rw [hp.shows hw hi (List.getElem?_eq_getElem hlt)]

/-- All bindings of a carrier are the values that were bundled. -/
theorem Unbundles.exec_bindings (hp : p.Unbundles b) (hw : ((b.construct vs).exec r s).1 = some w)
    (r' : Registry) (s' : RunState) :
    (p.bindings w).exec r' s' = (some (vs.map (Bundle.shown p.descriptor.bindings)), s') := by
  have hchecked := (hp.carries.takes vs r s).mp (by rw [hw]; rfl)
  apply Run.exec_mapM_of_forall₂
  apply forall₂_of_getElem?
  · rw [List.length_map, hp.count, hchecked.length_eq]
  · intro i h x hi hx s'
    rw [List.getElem?_map] at hx
    obtain ⟨v, hv, rfl⟩ := Option.map_eq_some_iff.mp hx
    exact hp.shows hw hi hv r' s'

section Collect

variable {v : Value} {collect : Run (List Value)} {u : RunState}

/-- A match attempt that collects values and bundles them gives the bundle. -/
theorem Unbundles.exec_matchCarrier (hp : p.Unbundles b)
    (htry : p.tryMatch.invoke [v] = Run.orNull (collect >>= b.construct)) :
    (p.matchCarrier v).exec r s = (collect >>= b.construct).exec r s := by
  apply Pattern.exec_matchCarrier htry
  intro w hw
  rcases hcollect : collect.exec r s with ⟨_ | vs, u⟩
  · rw [Run.exec_bind_of_none hcollect] at hw
    cases hw
  · rw [Run.exec_bind_of_some hcollect] at hw
    exact hp.carries.ne_null vs r u w hw

theorem Unbundles.matchCarrier_of_none (hp : p.Unbundles b)
    (htry : p.tryMatch.invoke [v] = Run.orNull (collect >>= b.construct))
    (hcollect : collect.exec r s = (none, u)) : (p.matchCarrier v).exec r s = (none, u) := by
  rw [hp.exec_matchCarrier htry, Run.exec_bind_of_none hcollect]

/-- Collected values that pass the check are the bindings. -/
theorem Unbundles.matchCarrier_of_checked (hp : p.Unbundles b)
    (htry : p.tryMatch.invoke [v] = Run.orNull (collect >>= b.construct))
    (hcollect : collect.exec r s = (some vs, u)) (hvs : Bundle.Checked r p.descriptor.bindings vs) :
    ∃ w u', (p.matchCarrier v).exec r s = (some w, u') ∧
      (p.bindings w).exec r u' = (some (vs.map (Bundle.shown p.descriptor.bindings)), u') := by
  obtain ⟨w, hw⟩ := Option.isSome_iff_exists.mp ((hp.carries.takes vs r u).mpr hvs)
  refine ⟨w, ((b.construct vs).exec r u).2, ?_, hp.exec_bindings hw r _⟩
  rw [hp.exec_matchCarrier htry, Run.exec_bind_of_some hcollect, ← hw]

/-- The target matches just when values are collected that pass the check. -/
theorem Unbundles.matches_iff (hp : p.Unbundles b)
    (htry : p.tryMatch.invoke [v] = Run.orNull (collect >>= b.construct)) :
    ((p.matchCarrier v).exec r s).1.isSome ↔
      ∃ vs u, collect.exec r s = (some vs, u) ∧ Bundle.Checked r p.descriptor.bindings vs := by
  refine ⟨?_, ?_⟩
  · intro h
    obtain ⟨w, hw⟩ := Option.isSome_iff_exists.mp h
    rw [hp.exec_matchCarrier htry] at hw
    obtain ⟨vs, u, hcollect, hw⟩ := Run.exec_bind_some (Prod.ext hw rfl)
    exact ⟨vs, u, hcollect, (hp.carries.takes vs r u).mp (by rw [hw]; rfl)⟩
  · rintro ⟨vs, u, hcollect, hvs⟩
    obtain ⟨w, u', hcarrier, -⟩ := hp.matchCarrier_of_checked htry hcollect hvs
    rw [hcarrier]
    rfl

/-- The target does not match when the values cannot be collected. -/
theorem Unbundles.match_of_none (hp : p.Unbundles b)
    (htry : p.tryMatch.invoke [v] = Run.orNull (collect >>= b.construct))
    (hcollect : collect.exec r s = (none, u)) :
    ((p.matchBindings v).exec r s).1 = none ∧ ((p.isMatch v).exec r s).1 = some false := by
  have hcarrier := hp.matchCarrier_of_none htry hcollect
  refine ⟨?_, ?_⟩
  · rw [matchBindings, Run.exec_bind_of_none hcarrier]
  · rw [exec_isMatch, hcarrier]
    rfl

/-- The target matches with the collected values when they are accepted and none of
them is the null mark. -/
theorem Unbundles.match_of_accepted (hp : p.Unbundles b)
    (htry : p.tryMatch.invoke [v] = Run.orNull (collect >>= b.construct))
    (hcollect : collect.exec r s = (some vs, u)) (hvs : Bundle.Accepted r p.descriptor.bindings vs)
    (hmarks : ∀ x ∈ vs, x ≠ .nullMark) :
    ((p.matchBindings v).exec r s).1 = some vs ∧ ((p.isMatch v).exec r s).1 = some true := by
  obtain ⟨w, u', hcarrier, hbindings⟩ := hp.matchCarrier_of_checked htry hcollect hvs.checked
  rw [Bundle.map_shown hmarks] at hbindings
  refine ⟨?_, ?_⟩
  · rw [matchBindings, Run.exec_bind_of_some hcarrier, hbindings]
  · rw [exec_isMatch, hcarrier]
    rfl

end Collect

/-! ## Adapting -/

/-- The first pattern, adapted to the target type, is the second one. -/
def Adapts (p : Pattern) (target : Ty) (q : Pattern) : Prop :=
  ∃ st st', (adapt p target).exec st = (.ok q, st')

variable {target : Ty}

/-- Either nothing had to be adapted, or the match attempt got a guard. -/
theorem Adapts.cases (h : p.Adapts target q) :
    (p.descriptor.target = target ∧ q = p) ∨
      (p.descriptor.target ≠ target ∧ q.Paired ∧ ∃ tryMatch,
        tryMatch.body.run = guarded (Guard.from p.descriptor.target target) p.tryMatch ∧
          q.MadeOf (p.descriptor.withTarget target) tryMatch p.components) := by
  obtain ⟨st, st', h⟩ := h
  unfold adapt at h
  by_cases htarget : p.descriptor.target = target
  · rw [if_pos htarget] at h
    cases h
    exact Or.inl ⟨htarget, rfl⟩
  · rw [if_neg htarget, Build.exec_bind, Build.exec_registry] at h
    simp only at h
    split at h
    · rename_i g hg
      obtain ⟨tryMatch, u, id, hbody, h⟩ := Build.exec_handle_bind_ok h
      obtain ⟨hpaired, hof, -⟩ := make_ok h
      refine Or.inr ⟨htarget, hpaired, tryMatch, ?_, hof⟩
      rw [hbody, Guard.between?_some hg]
    · cases h

theorem Adapts.bindings_eq (h : p.Adapts target q) : q.descriptor.bindings = p.descriptor.bindings := by
  rcases h.cases with ⟨-, rfl⟩ | ⟨-, -, tryMatch, -, hof⟩
  · rfl
  · rw [hof.descriptor_eq]
    rfl

theorem Adapts.target_eq (h : p.Adapts target q) : q.descriptor.target = target := by
  rcases h.cases with ⟨htarget, rfl⟩ | ⟨-, -, tryMatch, -, hof⟩
  · exact htarget
  · rw [hof.descriptor_eq]
    rfl

theorem Adapts.paired (h : p.Adapts target q) (hp : p.Paired) : q.Paired := by
  rcases h.cases with ⟨-, rfl⟩ | ⟨-, hpaired, -⟩
  · exact hp
  · exact hpaired

/-- Whenever a pattern is adapted, it matches and binds the same. -/
theorem Adapts.matchBindings_eq {q' : Pattern} (h : p.Adapts target q) (h' : p.Adapts target q') :
    q.matchBindings = q'.matchBindings := by
  rcases h.cases with ⟨hsame, rfl⟩ | ⟨hother, -, tryMatch, hrun, hof⟩
  · rcases h'.cases with ⟨-, rfl⟩ | ⟨hother, -⟩
    · rfl
    · exact absurd hsame hother
  · rcases h'.cases with ⟨hsame, -⟩ | ⟨-, -, tryMatch', hrun', hof'⟩
    · exact absurd hsame hother
    · apply matchBindings_congr
      · rw [hof.tryMatch_eq, hof'.tryMatch_eq, hrun, hrun']
      · rw [hof.components_eq, hof'.components_eq]

theorem steps_adapt (p : Pattern) (target : Ty) : (adapt p target).Steps := by
  unfold adapt
  by_cases htarget : p.descriptor.target = target
  · rw [if_pos htarget]
    exact Build.steps_pure p
  · rw [if_neg htarget]
    apply Build.steps_registry.bind
    intro r
    cases Guard.between? r p.descriptor.target target with
    | none => exact Build.steps_throw _
    | some g => exact (Build.steps_handle _ _).bind fun _ => (builds_make _ _ _).steps

theorem Builds.adapted {x : Build Pattern} (hx : Builds x) (target : Ty) :
    Builds (x >>= fun p => adapt p target) := by
  refine ⟨hx.steps.bind fun p => steps_adapt p target, ?_⟩
  intro st q st' h
  obtain ⟨p, u, hp, hq⟩ := Build.exec_bind_ok h
  exact Adapts.paired ⟨u, st', hq⟩ (hx.paired st p u hp)

end Pattern

end PatternDispatch

-- When a pattern cannot be built, and with which error. The parts of a pattern
-- that was paired fit, so whatever is made of them fits again, and the check of
-- the pairing never fires behind the scenes.
import PatternDispatch.Proofs.Pattern.Exposed
import PatternDispatch.Proofs.Pattern.Nested

namespace PatternDispatch

/-- Every target type is related to itself. -/
theorem Guard.between?_self (r : Registry) (t : Ty) : between? r t t = some (isNullOr t) := by
  have hself : t.assignable r t = true := by
    cases t with
    | scalar k => simp [Ty.assignable]
    | ref c => simp [Ty.assignable, Registry.isSubclass]
  unfold between?
  cases t <;> simp [hself]

namespace Pattern

variable {p outer : Pattern} {d : Descriptor} {tryMatch : Handle} {components : List Handle} {target : Ty}
  {inners : List (Option Pattern)} {types : List Ty} {st : Store} {e : BuildError} {j : Nat}

/-! ## Well-formed patterns -/

/-- The match attempt takes the target and returns the carrier type, there is one
component for each binding, from the carrier type to the binding, and the carrier
type is a scalar or `Object`. -/
structure WellFormed (p : Pattern) : Prop where
  carrier : p.carrierType.isScalar ∨ p.carrierType = .object
  tryMatch_eq : p.tryMatch.sig = .unary p.descriptor.target p.carrierType
  components_eq : p.components.map (·.sig) = p.descriptor.bindings.map (Signature.unary p.carrierType)

/-- Pairing brings the parts into this form. -/
theorem Paired.wellFormed (hp : p.Paired) : p.WellFormed := by
  obtain ⟨r, d, tryMatch, components, hpair⟩ := hp
  have hfits := fits_of_pair hpair
  rw [pair_of_fits hfits] at hpair
  cases hpair
  refine ⟨?_, ?_, ?_⟩
  · simp only [carrierType, Signature.withRet]
    cases tryMatch.sig.ret with
    | scalar k => exact Or.inl rfl
    | ref c => exact Or.inr rfl
  · rw [hfits.tryMatch_eq]
    rfl
  · have hmap := congrArg (List.map (Signature.withParam · 0 (erased tryMatch.sig.ret))) hfits.components_eq
    rw [List.map_map, List.map_map] at hmap
    rw [List.map_map]
    exact hmap

/-! ## Pairing -/

/-- The error of parts that do not fit. -/
def illegal (r : Registry) (d : Descriptor) (reason : String) : BuildError :=
  .illegalDescriptor (d.text r) reason

theorem make_fails_iff :
    (make d tryMatch components).Fails st e ↔
      ∃ reason, fault? st.registry d tryMatch.sig (components.map (·.sig)) = some reason ∧
        e = illegal st.registry d reason := by
  unfold make
  rw [Build.fails_bind_of_ok (Build.exec_registry st), Build.fails_ofExcept_iff]
  cases hfault : fault? st.registry d tryMatch.sig (components.map (·.sig)) with
  | none =>
    rw [pair_of_fits (fault?_eq_none_iff.mp hfault)]
    simp
  | some reason =>
    unfold pair
    rw [hfault]
    simpa [illegal] using eq_comm

/-! ## Tests of the target -/

theorem mints_ofType (t : Ty) : (ofType t).Mints fun p => p.Paired ∧ p.descriptor = ⟨t, [t]⟩ := by
  have hrest : ∀ tryMatch : Handle, tryMatch.sig = .unary t t →
      (do make ⟨t, [t]⟩ tryMatch [← Build.handle (.unary t t) Body.identity] : Build Pattern).Mints
        fun p => p.Paired ∧ p.descriptor = ⟨t, [t]⟩ := by
    intro tryMatch htry
    apply (Build.mints_handle _ _).bind
    rintro component ⟨hcomponent, -⟩
    exact mints_make ⟨htry, by rw [List.map_singleton, hcomponent]; rfl⟩
  unfold ofType
  cases t with
  | scalar k => exact (Build.mints_handle _ _).bind fun tryMatch htry => hrest tryMatch htry.1
  | ref c => exact (Build.mints_handle _ _).bind fun tryMatch htry => hrest tryMatch htry.1

theorem mints_nullable (t : Ty) : (nullable t).Mints fun p => p.Paired ∧ p.descriptor = ⟨t, [t]⟩ := by
  unfold nullable
  cases t with
  | scalar k => exact mints_ofType _
  | ref c =>
    apply (Build.mints_handle _ _).bind
    rintro tryMatch ⟨htry, -⟩
    apply (Build.mints_handle _ _).bind
    rintro component ⟨hcomponent, -⟩
    exact mints_make ⟨htry, by rw [List.map_singleton, hcomponent]; rfl⟩

/-- The target type of the pattern for a constant. -/
def constantTarget (c : Value) : Ty := .ref (c.class?.getD .object)

theorem mints_ofConstant (c : Value) :
    (ofConstant c).Mints fun p => p.Paired ∧ p.descriptor = ⟨constantTarget c, []⟩ := by
  apply (Build.mints_handle _ _).bind
  rintro tryMatch ⟨htry, -⟩
  exact mints_make ⟨htry, rfl⟩

/-! ## Another target type -/

/-- The error of two target types that are not related. -/
def unrelated (r : Registry) (old new : Ty) : BuildError := .incompatibleTarget (old.text r) (new.text r)

theorem adapt_of_unrelated (h : Guard.between? st.registry p.descriptor.target target = none) :
    (adapt p target).exec st = (.error (unrelated st.registry p.descriptor.target target), st) := by
  have hne : p.descriptor.target ≠ target := by
    intro heq
    rw [heq, Guard.between?_self] at h
    cases h
  unfold adapt
  rw [if_neg hne, Build.exec_bind, Build.exec_registry]
  simp only [h]
  rfl

theorem adapt_of_related (hp : p.WellFormed) {g : Guard}
    (h : Guard.between? st.registry p.descriptor.target target = some g) :
    ∃ q run, (adapt p target).exec st = (.ok q, { st with run }) := by
  unfold adapt
  by_cases htarget : p.descriptor.target = target
  · rw [if_pos htarget]
    exact ⟨p, st.run, rfl⟩
  · rw [if_neg htarget, Build.exec_bind, Build.exec_registry]
    simp only [h]
    have hmints : (do
        let tryMatch ← Build.handle (p.tryMatch.sig.withParam 0 target) (⟨·, guarded g p.tryMatch⟩)
        make (p.descriptor.withTarget target) tryMatch p.components : Build Pattern).Mints
          fun q => q.Paired ∧ q.descriptor = p.descriptor.withTarget target := by
      apply (Build.mints_handle _ _).bind
      rintro tryMatch ⟨htry, -⟩
      have hsig : tryMatch.sig = .unary target p.carrierType := by rw [htry, hp.tryMatch_eq]; rfl
      exact mints_make ⟨hsig, hp.components_eq⟩
    obtain ⟨q, run, hq, -⟩ := hmints st
    exact ⟨q, run, hq⟩

/-- A pattern cannot be adapted to a target type that is not related to its own. -/
theorem adapt_fails_iff (hp : p.WellFormed) :
    (adapt p target).Fails st e ↔
      Guard.between? st.registry p.descriptor.target target = none ∧
        e = unrelated st.registry p.descriptor.target target := by
  cases h : Guard.between? st.registry p.descriptor.target target with
  | none => rw [Build.fails_of_exec (adapt_of_unrelated h), and_iff_right rfl]
  | some g =>
    obtain ⟨q, run, hq⟩ := adapt_of_related hp h
    exact iff_of_false (Build.not_fails_of_exec hq) (by simp)

/-- A pattern that is always made fails to be made for another target type only if
that is not related. -/
theorem adapted_fails_iff {x : Build Pattern} (hx : x.Mints fun p => p.Paired ∧ p.descriptor = d) :
    (x >>= fun p => adapt p target).Fails st e ↔
      Guard.between? st.registry d.target target = none ∧ e = unrelated st.registry d.target target := by
  apply hx.bind_fails_iff
  rintro p ⟨hpaired, hdescriptor⟩ run
  rw [adapt_fails_iff hpaired.wellFormed, hdescriptor]

/-! ## Fewer bindings -/

theorem WellFormed.count (hp : p.WellFormed) : p.components.length = p.descriptor.bindings.length := by
  simpa using congrArg List.length hp.components_eq

/-- The bindings and the components at the same places still fit. -/
theorem WellFormed.fits (hp : p.WellFormed) (places : List Nat) :
    Fits ⟨p.descriptor.target, places.filterMap (p.descriptor.bindings[·]?)⟩ p.carrierType p.tryMatch.sig
      ((places.filterMap (p.components[·]?)).map (·.sig)) := by
  have hsigs : ∀ i : Nat, p.components[i]?.map Handle.sig =
      p.descriptor.bindings[i]?.map (Signature.unary p.carrierType) := by
    intro i
    rw [← List.getElem?_map, ← List.getElem?_map, hp.components_eq]
  refine ⟨hp.tryMatch_eq, ?_⟩
  rw [List.map_filterMap, List.map_filterMap]
  exact List.filterMap_congr fun i _ => hsigs i

theorem drop_fails_iff (hp : p.WellFormed) (positions : List Nat) :
    (drop p positions).Fails st e ↔
      ∃ index, positions.find? (p.descriptor.bindings.length ≤ ·) = some index ∧
        e = .componentOutOfBounds index p.descriptor.bindings.length := by
  unfold drop
  simp only
  cases hfind : positions.find? (p.descriptor.bindings.length ≤ ·) with
  | some index => simp [Build.fails_throw_iff]
  | none => exact iff_of_false (mints_make (hp.fits _)).not_fails (by simp)

/-! ## Bundled bindings -/

/-- Several bindings have no bundle, because their carrier is refused with the error. -/
def Unbundled (st : Store) (types : List Ty) (e : BuildError) : Prop :=
  2 ≤ types.length ∧ (TypedCarrier.ofTypes types).Fails st e

/-- A pattern that bundles its bindings fails to be made only if the bundle does. -/
theorem bundled_fails_iff (hs : st.Sound) (attempt : Bundle → Value → Run Value) :
    (do
      let bundle ← Bundle.ofTypes d.bindings
      let tryMatch ← Build.unary d.target bundle.carrierType (attempt bundle)
      make d tryMatch bundle.components : Build Pattern).Fails st e ↔ Unbundled st d.bindings e := by
  refine (Build.fails_bind_iff_left ?_).trans Bundle.ofTypes_fails_iff
  intro b t hb
  exact (mints_bundled (Bundle.sigs_of_ofTypes hs hb) (attempt b)).not_fails

/-- What runs left behind has no say in it. -/
theorem unbundled_run (hs : st.Sound) (run : RunState) :
    Unbundled { st with run } types e ↔ Unbundled st types e :=
  and_congr_right fun _ => TypedCarrier.ofTypes_fails_run hs run

theorem ofDigester_fails_iff (hs : st.Sound) (d : Descriptor) (digester : Digester) :
    (ofDigester d digester).Fails st e ↔ Unbundled st d.bindings e :=
  bundled_fails_iff hs _

/-! ## Projections -/

section Projections

variable {extractors : List Handle}

/-- Every extractor takes exactly the target. -/
def AllTake (target : Ty) (extractors : List Handle) : Prop := ∀ h ∈ extractors, h.sig.params = [target]

theorem projected_of_allTake (r : Registry) (h : AllTake target extractors) :
    projected r target extractors = .ok ⟨target, extractors.map (·.sig.ret)⟩ := by
  unfold projected
  split
  · rename_i x i hfind
    have hx := h x (List.fst_mem_of_mem_zipIdx (List.mem_of_find?_eq_some hfind))
    simpa [hx] using List.find?_some hfind
  · rfl

theorem projected_of_not_allTake (r : Registry) (h : ¬ AllTake target extractors) :
    ∃ reason, projected r target extractors = .error (.illegalDescriptor (target.text r) reason) := by
  cases hprojected : projected r target extractors with
  | ok d => exact absurd (projected_ok hprojected).2 h
  | error e =>
    unfold projected at hprojected
    split at hprojected
    · cases hprojected
      exact ⟨_, rfl⟩
    · cases hprojected

theorem sigs_of_allTake (h : AllTake target extractors) :
    extractors.map (·.sig) = (extractors.map (·.sig.ret)).map (Signature.unary target) := by
  rw [List.map_map]
  apply List.map_congr_left
  intro x hx
  show x.sig = ⟨[target], x.sig.ret⟩
  rw [← h x hx]

theorem ofLazyProjection_fails_iff (target : Ty) (extractors : List Handle) :
    (ofLazyProjection target extractors).Fails st e ↔ projected st.registry target extractors = .error e := by
  unfold ofLazyProjection
  rw [Build.fails_bind_of_ok (Build.exec_registry st), ← Build.fails_ofExcept_iff]
  refine Build.fails_bind_iff_left ?_
  intro d t hd
  obtain ⟨hd, rfl⟩ := Build.exec_ofExcept_ok hd
  obtain ⟨rfl, htake⟩ := projected_ok hd
  have hpaired := fun (tryMatch : Handle) (htry : tryMatch.sig = .unary target target) =>
    mints_make (d := ⟨target, _⟩) ⟨htry, sigs_of_allTake htake⟩
  exact ((Build.mints_handle _ _).bind fun tryMatch htry => hpaired tryMatch htry.1).not_fails

theorem ofEagerProjection_fails_iff (hs : st.Sound) (target : Ty) (extractors : List Handle) :
    (ofEagerProjection target extractors).Fails st e ↔
      projected st.registry target extractors = .error e ∨
        AllTake target extractors ∧ Unbundled st (extractors.map (·.sig.ret)) e := by
  unfold ofEagerProjection
  rw [Build.fails_bind_of_ok (Build.exec_registry st)]
  by_cases htake : AllTake target extractors
  · have hok := projected_of_allTake st.registry htake
    rw [hok, Build.fails_bind_of_ok (Build.exec_ofExcept _ st), and_iff_right htake]
    simpa using bundled_fails_iff hs (d := ⟨target, _⟩) _
  · obtain ⟨reason, herror⟩ := projected_of_not_allTake st.registry htake
    rw [herror, Build.fails_bind_of_error (Build.exec_ofExcept _ st)]
    simpa [htake] using eq_comm

/-- The error of a class that is no record. -/
def notRecord (r : Registry) (c : ClassId) : BuildError := .illegalDescriptor (r.name c) "not a record class"

theorem ofRecord_of_none {c : ClassId} (h : (st.registry.info c).components? = none) :
    (ofRecord c).Fails st e ↔ e = notRecord st.registry c := by
  unfold ofRecord
  rw [Build.fails_bind_of_ok (Build.exec_registry st)]
  simp only [h]
  exact Build.fails_throw_iff

theorem ofRecord_of_some (hs : st.Sound) {c : ClassId} {parts : List Component}
    (h : (st.registry.info c).components? = some parts) :
    (ofRecord c).Fails st e ↔ Unbundled st (parts.map (·.ty)) e := by
  unfold ofRecord
  rw [Build.fails_bind_of_ok (Build.exec_registry st)]
  simp only [h]
  apply (mints_fieldReaders c parts).bind_fails_iff
  intro extractors hreaders run
  have htake : AllTake (.ref c) extractors := by
    intro x hx
    obtain ⟨i, hi⟩ := List.mem_iff_getElem?.mp hx
    obtain ⟨part, -, hsig⟩ := hreaders.sig_eq hi
    rw [hsig]
    rfl
  have hsame : { st with run }.Sound := hs.of_same rfl rfl rfl rfl
  rw [ofEagerProjection_fails_iff hsame, projected_of_allTake _ htake, hreaders.rets_eq, unbundled_run hs run]
  simp [htake]

end Projections

/-! ## Patterns inside -/

/-- What adapting inner patterns to the types at their places can do. -/
inductive InnersOutcome (places : List (Option Pattern × Ty)) (st : Store) :
    Except BuildError (List (Nat × Pattern)) × Store → Prop
  | adapted {present : List (Nat × Pattern)} {run : RunState} :
    (∀ inner t, (some inner, t) ∈ places →
      ∃ g, Guard.between? st.registry inner.descriptor.target t = some g) →
    InnersOutcome places st (.ok present, { st with run })
  | refused {inner : Pattern} {t : Ty} {run : RunState} :
    (some inner, t) ∈ places → Guard.between? st.registry inner.descriptor.target t = none →
    InnersOutcome places st (.error (unrelated st.registry inner.descriptor.target t), { st with run })

theorem adaptInners_outcome (hinners : ∀ q, some q ∈ inners → q.WellFormed)
    (hcount : j + inners.length ≤ types.length) :
    InnersOutcome (inners.zip (types.drop j)) st ((adaptInners types j inners).exec st) := by
  induction inners generalizing j st with
  | nil =>
    refine .adapted ?_
    intro inner t hmem
    cases hmem
  | cons inner inners ih =>
    rw [List.length_cons] at hcount
    have hj : j < types.length := by omega
    have hrest : ∀ st, InnersOutcome (inners.zip (types.drop (j + 1))) st
        ((adaptInners types (j + 1) inners).exec st) :=
      fun st => ih (fun q hq => hinners q (List.mem_cons_of_mem _ hq)) (by omega)
    rw [List.drop_eq_getElem_cons hj, List.zip_cons_cons]
    cases inner with
    | none =>
      have outcome := hrest st
      show InnersOutcome _ st ((adaptInners types (j + 1) inners).exec st)
      generalize (adaptInners types (j + 1) inners).exec st = out at outcome
      cases outcome with
      | adapted hall => exact .adapted (by simpa using hall)
      | refused hmem hunrelated => exact .refused (List.mem_cons_of_mem _ hmem) hunrelated
    | some inner =>
      have hp := hinners inner List.mem_cons_self
      unfold adaptInners
      rw [List.getElem?_eq_getElem hj]
      simp only
      cases hguard : Guard.between? st.registry inner.descriptor.target types[j] with
      | none =>
        rw [Build.exec_bind, adapt_of_unrelated hguard]
        exact .refused List.mem_cons_self hguard
      | some g =>
        -- Adapting leaves the classes as they are, so they decide alike for the rest.
        obtain ⟨q, run, hq⟩ := adapt_of_related hp hguard
        have outcome := hrest { st with run }
        simp only [Build.exec_bind, hq]
        generalize (adaptInners types (j + 1) inners).exec { st with run } = out at outcome
        cases outcome with
        | adapted hall =>
          refine .adapted ?_
          intro inner' t hmem
          rcases List.mem_cons.mp hmem with heq | hmem
          · cases heq
            exact ⟨g, hguard⟩
          · exact hall inner' t hmem
        | refused hmem hunrelated => exact .refused (List.mem_cons_of_mem _ hmem) hunrelated

/-- The types of all bindings of a nested pattern. -/
def nestedBindings (outer : Pattern) (inners : List (Option Pattern)) : List Ty :=
  outer.descriptor.bindings ++ inners.reduceOption.flatMap (·.descriptor.bindings)

section Nested

variable {st' : Store} (hcount : inners.length ≤ outer.descriptor.bindings.length)

include hcount

theorem nested_of_refused {e' : BuildError}
    (h : (adaptInners outer.descriptor.bindings 0 inners).exec st = (.error e', st')) :
    (nested outer inners).Fails st e ↔ e = e' := by
  unfold nested
  simp only
  rw [if_neg (Nat.not_lt.mpr hcount)]
  exact Build.fails_bind_of_error h

theorem nested_of_adapted (hs : st'.Sound) {present : List (Nat × Pattern)}
    (h : (adaptInners outer.descriptor.bindings 0 inners).exec st = (.ok present, st')) :
    (nested outer inners).Fails st e ↔ Unbundled st' (nestedBindings outer inners) e := by
  rw [nestedBindings, ← bindings_adaptInners h]
  unfold nested
  simp only
  rw [if_neg (Nat.not_lt.mpr hcount)]
  refine (Build.fails_bind_of_ok h).trans ?_
  exact bundled_fails_iff hs (d := ⟨outer.descriptor.target, _⟩) _

end Nested

/-- The three things that can happen to a nested pattern, one after the other: there
are too many inner patterns, one of them cannot be adapted, or all bindings need a
bundle. -/
inductive NestedOutcome (st : Store) (outer : Pattern) (inners : List (Option Pattern)) : Prop
  | tooMany :
    outer.descriptor.bindings.length < inners.length →
    (∀ e, (nested outer inners).Fails st e ↔
      e = .componentOutOfBounds (inners.length - 1) outer.descriptor.bindings.length) →
    NestedOutcome st outer inners
  | refused {inner : Pattern} {t : Ty} :
    inners.length ≤ outer.descriptor.bindings.length →
    (some inner, t) ∈ inners.zip outer.descriptor.bindings →
    Guard.between? st.registry inner.descriptor.target t = none →
    (∀ e, (nested outer inners).Fails st e ↔ e = unrelated st.registry inner.descriptor.target t) →
    NestedOutcome st outer inners
  | bundled :
    inners.length ≤ outer.descriptor.bindings.length →
    (∀ inner t, (some inner, t) ∈ inners.zip outer.descriptor.bindings →
      ∃ g, Guard.between? st.registry inner.descriptor.target t = some g) →
    (∀ e, (nested outer inners).Fails st e ↔ Unbundled st (nestedBindings outer inners) e) →
    NestedOutcome st outer inners

theorem nested_outcome (hs : st.Sound) (hinners : ∀ q, some q ∈ inners → q.WellFormed) :
    NestedOutcome st outer inners := by
  by_cases hcount : inners.length ≤ outer.descriptor.bindings.length
  · have outcome : InnersOutcome (inners.zip (outer.descriptor.bindings.drop 0)) st
        ((adaptInners outer.descriptor.bindings 0 inners).exec st) := adaptInners_outcome hinners (by omega)
    rw [List.drop_zero] at outcome
    generalize hout : (adaptInners outer.descriptor.bindings 0 inners).exec st = out at outcome
    cases outcome with
    | refused hmem hunrelated =>
      exact .refused hcount hmem hunrelated fun e => nested_of_refused hcount hout
    | @adapted present run hall =>
      refine .bundled hcount hall ?_
      intro e
      have hsame : { st with run }.Sound := hs.of_same rfl rfl rfl rfl
      rw [nested_of_adapted hcount hsame hout, unbundled_run hs run]
  · have hmany := Nat.lt_of_not_le hcount
    refine .tooMany hmany ?_
    intro e
    unfold nested
    simp only
    rw [if_pos hmany]
    exact Build.fails_bind_of_error (Build.exec_throw _ st)

end Pattern

end PatternDispatch

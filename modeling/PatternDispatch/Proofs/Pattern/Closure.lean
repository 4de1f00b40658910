-- The law of the pattern algebra. Whatever patterns are made of, they are well
-- formed, and making one more fails for a reason of its own and never in the
-- check behind it.
import PatternDispatch.Proofs.Pattern.Refusals
import PatternDispatch.Proofs.Pattern.Soundness

namespace PatternDispatch.Pattern

variable {p outer : Pattern} {inners : List (Option Pattern)} {st st' : Store} {e : BuildError}

/-! ## Requests for patterns -/

/-- One request for a pattern. -/
inductive Request where
  /-- A match attempt and components of whatever origin. -/
  | parts (d : Descriptor) (tryMatch : Handle) (components : List Handle)
  | ofType (t : Ty)
  | ofTypeFor (t target : Ty)
  | nullable (t : Ty)
  | nullableFor (t target : Ty)
  | ofConstant (c : Value)
  | ofConstantFor (c : Value) (target : Ty)
  | lazyProjection (target : Ty) (extractors : List Handle)
  | eagerProjection (target : Ty) (extractors : List Handle)
  | ofRecord (c : ClassId)
  | ofDigester (d : Descriptor) (digester : Digester)
  | adapt (p : Pattern) (target : Ty)
  | drop (p : Pattern) (positions : List Nat)
  | nested (outer : Pattern) (inners : List (Option Pattern))

namespace Request

def build : Request → Build Pattern
  | parts d tryMatch components => make d tryMatch components
  | ofType t => Pattern.ofType t
  | ofTypeFor t target => Pattern.ofTypeFor t target
  | nullable t => Pattern.nullable t
  | nullableFor t target => Pattern.nullableFor t target
  | ofConstant c => Pattern.ofConstant c
  | ofConstantFor c target => Pattern.ofConstantFor c target
  | lazyProjection target extractors => ofLazyProjection target extractors
  | eagerProjection target extractors => ofEagerProjection target extractors
  | ofRecord c => Pattern.ofRecord c
  | ofDigester d digester => Pattern.ofDigester d digester
  | adapt p target => Pattern.adapt p target
  | drop p positions => Pattern.drop p positions
  | nested outer inners => Pattern.nested outer inners

/-- The patterns that the request starts from. -/
def inputs : Request → List Pattern
  | adapt p _ => [p]
  | drop p _ => [p]
  | nested outer inners => outer :: inners.reduceOption
  | _ => []

/-- The parts that the request was given do not belong together. -/
def Illegal (r : Registry) : Request → Prop
  | parts d tryMatch components => ¬ Fits d tryMatch.sig.ret tryMatch.sig (components.map (·.sig))
  | lazyProjection target extractors => ¬ AllTake target extractors
  | eagerProjection target extractors => ¬ AllTake target extractors
  | ofRecord c => (r.info c).components? = none
  | _ => False

end Request

/-- The patterns that come out of requests, each of which may start from patterns
that came out before. -/
inductive Obtained : Pattern → Prop
  | of (q : Request) {st st' : Store} {p : Pattern} :
    (∀ input ∈ q.inputs, Obtained input) → st.Reachable → q.build.exec st = (.ok p, st') → Obtained p

theorem Request.builds (q : Request) (hq : ∀ input ∈ q.inputs, input.Paired) : Builds q.build := by
  cases q with
  | parts d tryMatch components => exact builds_make d tryMatch components
  | ofType t => exact builds_ofType t
  | ofTypeFor t target => exact builds_ofTypeFor t target
  | nullable t => exact builds_nullable t
  | nullableFor t target => exact builds_nullableFor t target
  | ofConstant c => exact builds_ofConstant c
  | ofConstantFor c target => exact builds_ofConstantFor c target
  | lazyProjection target extractors => exact builds_ofLazyProjection target extractors
  | eagerProjection target extractors => exact builds_ofEagerProjection target extractors
  | ofRecord c => exact builds_ofRecord c
  | ofDigester d digester => exact builds_ofDigester d digester
  | adapt p target =>
    refine ⟨steps_adapt p target, ?_⟩
    intro st q st' h
    exact Adapts.paired ⟨st, st', h⟩ (hq p List.mem_cons_self)
  | drop p positions => exact builds_drop p positions
  | nested outer inners => exact builds_nested outer inners

theorem Obtained.paired (h : Obtained p) : p.Paired := by
  induction h with
  | of q _ _ hexec ih => exact (q.builds ih).paired _ _ _ hexec

theorem Obtained.wellFormed (h : Obtained p) : p.WellFormed := h.paired.wellFormed

/-! ## Why requests fail -/

namespace Request

variable {q : Request}

/-- The sorts of errors that a request can end in. -/
inductive Reason (st : Store) (q : Request) : BuildError → Prop
  | illegal {d reason : String} : q.Illegal st.registry → Reason st q (.illegalDescriptor d reason)
  | outOfBounds {index count : Nat} : Reason st q (.componentOutOfBounds index count)
  | incompatible {old new : String} : Reason st q (.incompatibleTarget old new)
  | unbundled {types : List Ty} {e : BuildError} : Unbundled st types e → Reason st q e

theorem illegal_of_projected {r : Registry} {target : Ty} {extractors : List Handle}
    (h : projected r target extractors = .error e) :
    ¬ AllTake target extractors ∧ ∃ d reason, e = .illegalDescriptor d reason := by
  by_cases htake : AllTake target extractors
  · cases (projected_of_allTake r htake).symm.trans h
  · obtain ⟨reason, herror⟩ := projected_of_not_allTake r htake
    cases herror.symm.trans h
    exact ⟨htake, _, _, rfl⟩

/-- No request fails for another reason. -/
theorem reason_of_fails (hs : st.Sound) (hq : ∀ input ∈ q.inputs, input.WellFormed)
    (h : q.build.Fails st e) : q.Reason st e := by
  cases q with
  | parts d tryMatch components =>
    obtain ⟨reason, hfault, rfl⟩ := make_fails_iff.mp h
    refine .illegal ?_
    intro hfits
    rw [fault?_eq_none_iff.mpr hfits] at hfault
    cases hfault
  | ofType t => exact absurd h (mints_ofType t).not_fails
  | ofTypeFor t target =>
    obtain ⟨-, rfl⟩ := (adapted_fails_iff (mints_ofType t)).mp h
    exact .incompatible
  | nullable t => exact absurd h (mints_nullable t).not_fails
  | nullableFor t target =>
    obtain ⟨-, rfl⟩ := (adapted_fails_iff (mints_nullable t)).mp h
    exact .incompatible
  | ofConstant c => exact absurd h (mints_ofConstant c).not_fails
  | ofConstantFor c target =>
    obtain ⟨-, rfl⟩ := (adapted_fails_iff (mints_ofConstant c)).mp h
    exact .incompatible
  | lazyProjection target extractors =>
    have hprojected := (ofLazyProjection_fails_iff target extractors).mp h
    obtain ⟨htake, d, reason, rfl⟩ := illegal_of_projected hprojected
    exact .illegal htake
  | eagerProjection target extractors =>
    rcases (ofEagerProjection_fails_iff hs target extractors).mp h with hprojected | ⟨-, hbundle⟩
    · obtain ⟨htake, d, reason, rfl⟩ := illegal_of_projected hprojected
      exact .illegal htake
    · exact .unbundled hbundle
  | ofRecord c =>
    cases hparts : (st.registry.info c).components? with
    | none =>
      cases (ofRecord_of_none hparts).mp h
      exact .illegal hparts
    | some parts => exact .unbundled ((ofRecord_of_some hs hparts).mp h)
  | ofDigester d digester => exact .unbundled ((ofDigester_fails_iff hs d digester).mp h)
  | adapt p target =>
    obtain ⟨-, rfl⟩ := (adapt_fails_iff (hq p List.mem_cons_self)).mp h
    exact .incompatible
  | drop p positions =>
    obtain ⟨index, -, rfl⟩ := (drop_fails_iff (hq p List.mem_cons_self) positions).mp h
    exact .outOfBounds
  | nested outer inners =>
    have hinners : ∀ q, some q ∈ inners → q.WellFormed := fun q hinner =>
      hq q (List.mem_cons_of_mem _ (List.reduceOption_mem_iff.mpr hinner))
    cases nested_outcome hs hinners with
    | tooMany _ hfails =>
      cases (hfails e).mp h
      exact .outOfBounds
    | refused _ _ _ hfails =>
      cases (hfails e).mp h
      exact .incompatible
    | bundled _ _ hfails => exact .unbundled ((hfails e).mp h)

/-- Parts that do not belong together are refused. -/
theorem fails_of_illegal (hs : st.Sound) (h : q.Illegal st.registry) :
    ∃ d reason, q.build.Fails st (.illegalDescriptor d reason) := by
  cases q with
  | parts d tryMatch components =>
    rcases hfault : fault? st.registry d tryMatch.sig (components.map (·.sig)) with _ | reason
    · exact absurd (fault?_eq_none_iff.mp hfault) h
    · exact ⟨_, reason, make_fails_iff.mpr ⟨reason, hfault, rfl⟩⟩
  | lazyProjection target extractors =>
    obtain ⟨reason, herror⟩ := projected_of_not_allTake st.registry h
    exact ⟨_, reason, (ofLazyProjection_fails_iff target extractors).mpr herror⟩
  | eagerProjection target extractors =>
    obtain ⟨reason, herror⟩ := projected_of_not_allTake st.registry h
    exact ⟨_, reason, (ofEagerProjection_fails_iff hs target extractors).mpr (Or.inl herror)⟩
  | ofRecord c => exact ⟨_, _, (ofRecord_of_none h).mpr rfl⟩
  | ofType | ofTypeFor | nullable | nullableFor | ofConstant | ofConstantFor | ofDigester | adapt | drop
    | nested => exact absurd h id

/-- Descriptors are illegal only where parts do not belong together. -/
theorem illegalDescriptor_iff (hs : st.Sound) (hq : ∀ input ∈ q.inputs, input.WellFormed) :
    (∃ d reason, q.build.Fails st (.illegalDescriptor d reason)) ↔ q.Illegal st.registry := by
  refine ⟨?_, fails_of_illegal hs⟩
  rintro ⟨d, reason, hfails⟩
  cases reason_of_fails hs hq hfails with
  | illegal hillegal => exact hillegal
  | unbundled hbundle =>
    rcases TypedCarrier.sort_of_ofTypes_fails hs hbundle.2 with ⟨_, _, _, he⟩ | ⟨_, _, he⟩ <;> cases he

/-- The types of a call site are never in question. -/
theorem not_contractMismatch (hs : st.Sound) (hq : ∀ input ∈ q.inputs, input.WellFormed)
    (found expected : String) : ¬ q.build.Fails st (.contractMismatch found expected) := by
  intro hfails
  cases reason_of_fails hs hq hfails with
  | unbundled hbundle =>
    rcases TypedCarrier.sort_of_ofTypes_fails hs hbundle.2 with ⟨_, _, _, he⟩ | ⟨_, _, he⟩ <;> cases he

end Request

/-! ## The law -/

/-- When a pattern with patterns inside cannot be built. -/
structure NestedContract (st : Store) (outer : Pattern) (inners : List (Option Pattern)) : Prop where
  /-- The number of inner patterns is checked before all else. -/
  outOfBounds : ∀ index count, (nested outer inners).Fails st (.componentOutOfBounds index count) ↔
    outer.descriptor.bindings.length < inners.length ∧
      index = inners.length - 1 ∧ count = outer.descriptor.bindings.length
  /-- An inner pattern that is present cannot be adapted to the type of its binding. -/
  incompatible : (∃ old new, (nested outer inners).Fails st (.incompatibleTarget old new)) ↔
    inners.length ≤ outer.descriptor.bindings.length ∧
      ∃ inner t, (some inner, t) ∈ inners.zip outer.descriptor.bindings ∧ ∃ e, (adapt inner t).Fails st e
  /-- All other errors are those of the carrier of two or more bindings. -/
  others : ∀ e, (∀ index count, e ≠ .componentOutOfBounds index count) →
    (∀ old new, e ≠ .incompatibleTarget old new) →
    ((nested outer inners).Fails st e ↔
      inners.length ≤ outer.descriptor.bindings.length ∧
        (∀ inner t, (some inner, t) ∈ inners.zip outer.descriptor.bindings → ∀ e, ¬ (adapt inner t).Fails st e) ∧
        2 ≤ (nestedBindings outer inners).length ∧
        (TypedCarrier.ofTypes (nestedBindings outer inners)).Fails st e)

theorem nested_keeps_contract (hs : st.Sound) (hinners : ∀ q, some q ∈ inners → q.WellFormed) :
    NestedContract st outer inners := by
  have hadapt : ∀ inner t, (some inner, t) ∈ inners.zip outer.descriptor.bindings → ∀ e,
      (adapt inner t).Fails st e ↔ Guard.between? st.registry inner.descriptor.target t = none ∧
        e = unrelated st.registry inner.descriptor.target t :=
    fun inner t hmem e => adapt_fails_iff (hinners inner (List.of_mem_zip hmem).1)
  have outcome : NestedOutcome st outer inners := nested_outcome hs hinners
  cases outcome with
  | tooMany hcount hfails =>
    have hnot := Nat.not_le.mpr hcount
    refine ⟨?_, ?_, ?_⟩
    · intro index count
      simp [hfails, hcount]
    · simp [hfails, hnot]
    · intro e hbounds _
      simp [hfails, hnot, hbounds]
  | @refused inner t hcount hmem hunrelated hfails =>
    have hrefused := (hadapt inner t hmem _).mpr ⟨hunrelated, rfl⟩
    refine ⟨?_, ?_, ?_⟩
    · intro index count
      simp [hfails, unrelated, hcount]
    · exact iff_of_true ⟨_, _, (hfails _).mpr rfl⟩ ⟨hcount, inner, t, hmem, _, hrefused⟩
    · intro e _ hincompatible
      apply iff_of_false
      · intro h
        exact hincompatible _ _ ((hfails e).mp h)
      · rintro ⟨-, hall, -⟩
        exact hall inner t hmem _ hrefused
  | bundled hcount hall hfails =>
    have hnone : ∀ inner t, (some inner, t) ∈ inners.zip outer.descriptor.bindings →
        ∀ e, ¬ (adapt inner t).Fails st e := by
      intro inner t hmem e h
      obtain ⟨g, hg⟩ := hall inner t hmem
      cases hg.symm.trans ((hadapt inner t hmem e).mp h).1
    have hsort : ∀ e, (nested outer inners).Fails st e →
        (∃ shape slots max, e = .arityExceeded shape slots max) ∨
          ∃ shape reason, e = .specializationFailed shape reason :=
      fun e h => TypedCarrier.sort_of_ofTypes_fails hs ((hfails e).mp h).2
    refine ⟨?_, ?_, ?_⟩
    · intro index count
      refine iff_of_false ?_ (by omega)
      intro h
      rcases hsort _ h with ⟨_, _, _, he⟩ | ⟨_, _, he⟩ <;> cases he
    · apply iff_of_false
      · rintro ⟨old, new, h⟩
        rcases hsort _ h with ⟨_, _, _, he⟩ | ⟨_, _, he⟩ <;> cases he
      · rintro ⟨-, inner, t, hmem, e, h⟩
        exact hnone inner t hmem e h
    · intro e _ _
      rw [hfails, and_iff_right hcount, and_iff_right hnone]
      rfl

/-- Every pattern that can be obtained is well formed. Tests for a type and for a
constant are always built. Another target type fails only if it is not related, fewer
bindings only at a position past the last one, and patterns inside by their contract.
A class has an illegal descriptor just if it is no record. In all other requests an
illegal descriptor comes from parts that do not belong together, and from nothing
else; a mismatch of call sites never comes up. -/
theorem the_pattern_algebra_is_closed (hst : st.Reachable) :
    (∀ p, Obtained p → p.WellFormed) ∧
      (∀ t, ∃ p st', (ofType t).exec st = (.ok p, st')) ∧
      (∀ t, ∃ p st', (nullable t).exec st = (.ok p, st')) ∧
      (∀ c, ∃ p st', (ofConstant c).exec st = (.ok p, st')) ∧
      (∀ p target e, Obtained p → (adapt p target).Fails st e →
        e = .incompatibleTarget (p.descriptor.target.text st.registry) (target.text st.registry)) ∧
      (∀ p positions e, Obtained p → (drop p positions).Fails st e →
        ∃ index ∈ positions, p.descriptor.bindings.length ≤ index ∧
          e = .componentOutOfBounds index p.descriptor.bindings.length) ∧
      (∀ outer inners, Obtained outer → (∀ q, some q ∈ inners → Obtained q) → NestedContract st outer inners) ∧
      (∀ types e, (TypedCarrier.ofTypes types).Fails st e →
        (∃ shape slots max, e = .arityExceeded shape slots max) ∨
          ∃ shape reason, e = .specializationFailed shape reason) ∧
      (∀ c, (∃ d reason, (ofRecord c).Fails st (.illegalDescriptor d reason)) ↔
        (st.registry.info c).components? = none) ∧
      (∀ q : Request, (∀ input ∈ q.inputs, Obtained input) →
        ((∃ d reason, q.build.Fails st (.illegalDescriptor d reason)) ↔ q.Illegal st.registry) ∧
          ∀ found expected, ¬ q.build.Fails st (.contractMismatch found expected)) := by
  have hs := hst.sound
  refine ⟨fun p h => h.wellFormed, ?_, ?_, ?_, ?_, ?_, ?_, ?_, ?_, ?_⟩
  · intro t
    obtain ⟨p, run, h, -⟩ := mints_ofType t st
    exact ⟨p, _, h⟩
  · intro t
    obtain ⟨p, run, h, -⟩ := mints_nullable t st
    exact ⟨p, _, h⟩
  · intro c
    obtain ⟨p, run, h, -⟩ := mints_ofConstant c st
    exact ⟨p, _, h⟩
  · intro p target e hp h
    exact ((adapt_fails_iff hp.wellFormed).mp h).2
  · intro p positions e hp h
    obtain ⟨index, hfind, rfl⟩ := (drop_fails_iff hp.wellFormed positions).mp h
    exact ⟨index, List.mem_of_find?_eq_some hfind, by simpa using List.find?_some hfind, rfl⟩
  · intro outer inners _ hinners
    exact nested_keeps_contract hs fun q hq => (hinners q hq).wellFormed
  · exact fun types e => TypedCarrier.sort_of_ofTypes_fails hs
  · intro c
    exact Request.illegalDescriptor_iff (q := .ofRecord c) hs fun _ hmem => by cases hmem
  · intro q hq
    have hq := fun input hmem => (hq input hmem).wellFormed
    exact ⟨Request.illegalDescriptor_iff hs hq, Request.not_contractMismatch hs hq⟩

/-- The law on a record with one component: two patterns do not go inside, and a
string is no record. -/
theorem the_pattern_of_a_box_takes_one_inside :
    boxStore.Reachable ∧ ∃ p st', (ofRecord ⟨14⟩).exec boxStore = (.ok p, st') ∧ p.WellFormed ∧
      (nested p [none, none]).Fails boxStore (.componentOutOfBounds 1 1) ∧
      ∃ d reason, (ofRecord .string).Fails boxStore (.illegalDescriptor d reason) := by
  obtain ⟨p, st', hp, hdescriptor⟩ : ∃ p st', (ofRecord ⟨14⟩).exec boxStore = (.ok p, st') ∧
      p.descriptor = ⟨.ref ⟨14⟩, [.object]⟩ := ⟨_, _, rfl, rfl⟩
  have hobtained : Obtained p := .of (.ofRecord ⟨14⟩) (fun _ hmem => by cases hmem) reachable_boxStore hp
  obtain ⟨hwell, -, -, -, -, -, hnested, -, hrecord, -⟩ := the_pattern_algebra_is_closed reachable_boxStore
  have hcontract := hnested p [none, none] hobtained (by simp)
  refine ⟨reachable_boxStore, p, st', hp, hwell p hobtained, ?_, (hrecord .string).mpr rfl⟩
  exact (hcontract.outOfBounds 1 1).mpr (by simp [hdescriptor])

end PatternDispatch.Pattern

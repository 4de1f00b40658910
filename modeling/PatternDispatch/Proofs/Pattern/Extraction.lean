-- The law of extraction times. An eager projection extracts when it matches, in order and
-- no further than the first extractor that does not match; a lazy one extracts when a
-- binding is read, and then that binding alone.
import PatternDispatch.Proofs.Pattern.Projections

namespace PatternDispatch.Pattern

variable {p eager lazily : Pattern} {b : Bundle} {target : Ty} {extractors : List Handle}
  {name : Handle → String} {v w : Value} {carriers : List Value} {r : Registry} {s t : RunState}
  {st st' u u' : Store}

/-! ## What happens to a pattern -/

/-- What a pattern is used for: to match a target, or to read a binding out of a carrier. -/
inductive Use where
  | attempt (target : Value)
  | read (i : Nat) (carrier : Value)

/-- A use of a pattern, over the classes as they stand then. -/
structure Event where
  classes : Registry
  use : Use
  before : RunState
  after : RunState

/-- The pattern is used again and again, from a state on. The carriers that bindings are read
out of came from its own match attempts. -/
inductive History (p : Pattern) : List Value → RunState → List Event → RunState → Prop
  | done {carriers : List Value} {s : RunState} : History p carriers s [] s
  | attempt {carriers : List Value} {r : Registry} {v : Value} {found : Option Value} {s t u : RunState}
      {events : List Event} :
    (p.matchCarrier v).exec r s = (found, t) → History p (found.toList ++ carriers) t events u →
    History p carriers s (⟨r, .attempt v, s, t⟩ :: events) u
  | read {carriers : List Value} {r : Registry} {i : Nat} {w : Value} {h : Handle} {s t u : RunState}
      {events : List Event} :
    w ∈ carriers → p.components[i]? = some h → ((h.invoke [w]).exec r s).2 = t →
    History p carriers t events u → History p carriers s (⟨r, .read i w, s, t⟩ :: events) u

/-- What is so of every use that can happen is so of the whole history. `Known` is what is
known of the carriers. -/
theorem History.forall (Known : Value → Prop) {Law : Event → Prop} {events : List Event}
    (hattempt : ∀ r v s, Law ⟨r, .attempt v, s, ((p.matchCarrier v).exec r s).2⟩)
    (hfound : ∀ r v s w t, (p.matchCarrier v).exec r s = (some w, t) → Known w)
    (hread : ∀ r i w h s, Known w → p.components[i]? = some h →
      Law ⟨r, .read i w, s, ((h.invoke [w]).exec r s).2⟩)
    (hhistory : History p carriers s events t) (hcarriers : ∀ w ∈ carriers, Known w) :
    ∀ e ∈ events, Law e := by
  induction hhistory with
  | done => simp
  | @attempt carriers r v found s t u events hexec _ ih =>
    have hnext : ∀ w ∈ found.toList ++ carriers, Known w := by
      intro w hw
      rcases List.mem_append.mp hw with hw | hw
      · rw [Option.mem_toList.mp hw] at hexec
        exact hfound r v s w t hexec
      · exact hcarriers w hw
    have hlaw := hattempt r v s
    rw [hexec] at hlaw
    exact List.forall_mem_cons.mpr ⟨hlaw, ih hnext⟩
  | @read carriers r i w h s t u events hw hi hexec _ ih =>
    have hlaw := hread r i w h s (hcarriers w hw) hi
    rw [hexec] at hlaw
    exact List.forall_mem_cons.mpr ⟨hlaw, ih hcarriers⟩

/-- When the carriers of a pattern are bundles, reads leave the run as it is. -/
theorem History.forall_of_bundled {Law : Event → Prop} {events : List Event}
    (hfound : ∀ r v s w t, (p.matchCarrier v).exec r s = (some w, t) →
      ∃ vs r s, ((b.construct vs).exec r s).1 = some w ∧ p.Unbundles b)
    (hattempt : ∀ r v s, Law ⟨r, .attempt v, s, ((p.matchCarrier v).exec r s).2⟩)
    (hread : ∀ r i w s, Law ⟨r, .read i w, s, s⟩) (hhistory : History p [] s events t) :
    ∀ e ∈ events, Law e := by
  refine hhistory.forall (fun w => ∃ vs r s, ((b.construct vs).exec r s).1 = some w ∧ p.Unbundles b) hattempt
    hfound ?_ (by simp)
  rintro r i w h s ⟨vs, r', s', hw, hunbundles⟩ hi
  rw [hunbundles.exec_read_snd hw (List.mem_of_getElem? hi)]
  exact hread r i w s

/-! ## When extractors run -/

/-- The extractors that an eager projection runs on an event. A match attempt runs them in
turn, but none on null, and a read runs none. -/
def EagerlyRuns (extractors : List Handle) (e : Event) (ran : List Handle) : Prop :=
  match e.use with
  | .attempt .null => ran = []
  | .attempt v => ∃ given t, Handle.InTurn e.classes v extractors e.before ran given t
  | .read _ _ => ran = []

/-- The extractors that a lazy projection runs on an event: none when it matches, and when a
binding is read the one for that binding. -/
def LazilyRuns (extractors : List Handle) (e : Event) (ran : List Handle) : Prop :=
  match e.use with
  | .attempt _ => ran = []
  | .read i _ => ∃ extractor, extractors[i]? = some extractor ∧ ran = [extractor]

/-- A match attempt of an eager projection counts what runs in turn and nothing else. -/
theorem EagerOf.counts_attempt (he : EagerOf p target extractors b) (hb : b.Given p.descriptor.bindings)
    (hcount : ∀ e ∈ extractors, e.CountsAs (name e)) (r : Registry) (v : Value) (s : RunState) :
    ∃ ran, EagerlyRuns extractors ⟨r, .attempt v, s, ((p.matchCarrier v).exec r s).2⟩ ran ∧
      s.Counts (ran.map name) ((p.matchCarrier v).exec r s).2 := by
  rw [exec_matchCarrier_snd]
  by_cases hv : v = .null
  · subst hv
    rw [he.attempt_null]
    exact ⟨[], rfl, .refl s⟩
  · obtain ⟨ran, given, t, hturn, hexec⟩ := Handle.exists_inTurn r v extractors s
    refine ⟨ran, ?_, ?_⟩
    · unfold EagerlyRuns
      split
      · rename_i hnull
        cases hnull
        exact absurd rfl hv
      · rename_i hattempt
        cases hattempt
        exact ⟨given, t, hturn⟩
      · contradiction
    · have hturns := hturn.counts hcount
      rw [he.attempt v hv, Run.exec_orNull]
      unfold extract
      apply Run.counts_bind
      · rwa [hexec]
      · exact hb.silent_constructor

/-- A history of an eager projection: extractors run when it matches. -/
theorem counts_ofEagerProjection (hst : st.Reachable)
    (h : (ofEagerProjection target extractors).exec st = (.ok p, st'))
    (hcount : ∀ e ∈ extractors, e.CountsAs (name e)) {events : List Event} (hhistory : History p [] s events t) :
    ∀ e ∈ events, ∃ ran, EagerlyRuns extractors e ran ∧ e.before.Counts (ran.map name) e.after := by
  obtain ⟨b, u, hb, he⟩ := eagerOf_of_ofEagerProjection h
  have hgiven : b.Given p.descriptor.bindings := by
    rw [he.descriptor_eq]
    exact ⟨st, u, hst, hb⟩
  refine hhistory.forall_of_bundled (b := b) ?_ (he.counts_attempt hgiven hcount) fun r i w s => ⟨[], rfl, .refl s⟩
  intro r v s w t hmatch
  obtain ⟨vs, u, -, hw⟩ := he.bundled hgiven hmatch
  exact ⟨vs, r, u, hw⟩

/-- A history of a lazy projection: an extractor runs when its binding is read. -/
theorem counts_ofLazyProjection (h : (ofLazyProjection target extractors).exec st = (.ok p, st'))
    (hcount : ∀ e ∈ extractors, e.CountsAs (name e)) {events : List Event} (hhistory : History p [] s events t) :
    ∀ e ∈ events, ∃ ran, LazilyRuns extractors e ran ∧ e.before.Counts (ran.map name) e.after := by
  obtain ⟨tryMatch, id, hof, hbody, -⟩ := ofLazyProjection_inv h
  refine hhistory.forall (fun _ => True) ?_ (fun _ _ _ _ _ _ => trivial) ?_ (by simp)
  · intro r v s
    refine ⟨[], rfl, ?_⟩
    rw [exec_matchCarrier_snd, hof.attempt_eq, Handle.invoke, hbody]
    exact .refl s
  · rintro r i w h s - hi
    have hbodies := congrArg (·[i]?) hof.components_eq
    simp only [List.getElem?_map, hi, Option.map_some] at hbodies
    obtain ⟨extractor, hextractor, hsame⟩ := Option.map_eq_some_iff.mp hbodies.symm
    refine ⟨[extractor], ⟨extractor, hextractor, rfl⟩, ?_⟩
    rw [Handle.invoke, ← hsame]
    exact hcount extractor (List.mem_of_getElem? hextractor) [w] r s

/-! ## The law -/

/-- However two projections on the same extractors are used, an eager one runs the extractors
in order when it matches a target that is not null, each one once and none after the first
one that does not match; it runs none on null, and none when bindings are read. A lazy one
runs none when it matches, and one when a binding is read, the one for that binding. -/
theorem extractors_run_on_the_match_or_on_the_read (hst : st.Reachable)
    (heager : (ofEagerProjection target extractors).exec st = (.ok eager, st'))
    (hlazy : (ofLazyProjection target extractors).exec u = (.ok lazily, u'))
    (hcount : ∀ e ∈ extractors, e.CountsAs (name e)) :
    (∀ s events t, History eager [] s events t → ∀ e ∈ events, ∃ ran,
      EagerlyRuns extractors e ran ∧ e.before.Counts (ran.map name) e.after) ∧
    ∀ s events t, History lazily [] s events t → ∀ e ∈ events, ∃ ran,
      LazilyRuns extractors e ran ∧ e.before.Counts (ran.map name) e.after :=
  ⟨fun _ _ _ => counts_ofEagerProjection hst heager hcount, fun _ _ _ => counts_ofLazyProjection hlazy hcount⟩

/-- Matches the string "x" alone, and counts how often it is asked. -/
def countedNullOfX : Handle := ⟨.unary .string .string, .counted 3 "null of x" nullOfX⟩

/-- Gives the target itself, and counts how often it does. -/
def countedItself : Handle := ⟨.unary .string .string, .counted 4 "itself" itself⟩

/-- The name under which one of these two counts. -/
def counterOf (h : Handle) : String := if h.body.id = 3 then "null of x" else "itself"

/-- The law on these two: the string "y" fails at the first extractor, so the eager projection
never runs the second one; the lazy one runs just that when its binding is read. -/
theorem the_second_extractor_runs_on_its_read_alone :
    ∃ eager st lazily st',
      (ofEagerProjection .string [countedNullOfX, countedItself]).exec (.initial []) = (.ok eager, st) ∧
      (ofLazyProjection .string [countedNullOfX, countedItself]).exec st = (.ok lazily, st') ∧
      (∀ s found t, (eager.matchCarrier (.str "y")).exec .initial s = (found, t) → s.Counts ["null of x"] t) ∧
      ∀ s w t h u, (lazily.matchCarrier (.str "y")).exec .initial s = (some w, t) →
        lazily.components[1]? = some h → ((h.invoke [w]).exec .initial t).2 = u →
          s.Counts [] t ∧ t.Counts ["itself"] u := by
  obtain ⟨b, u, hb⟩ := Bundle.two_strings_ok (Store.reachable_initial []) rfl
  have htake : AllTake .string [countedNullOfX, countedItself] := by
    intro e he
    rcases List.mem_pair.mp he with rfl | rfl
    · rfl
    · rfl
  obtain ⟨eager, st, heager⟩ := ofEagerProjection_ok htake (Store.reachable_initial []) (by decide) hb
  obtain ⟨lazily, st', hlazy⟩ : ∃ lazily st',
    (ofLazyProjection .string [countedNullOfX, countedItself]).exec st = (.ok lazily, st') := ⟨_, _, rfl⟩
  have hcount : ∀ e ∈ [countedNullOfX, countedItself], e.CountsAs (counterOf e) := by
    intro e he
    rcases List.mem_pair.mp he with rfl | rfl
    · exact Handle.countsAs_counted _ _ _ (Body.silent_unary 2 fun v => Run.silent_ofOption _)
    · exact Handle.countsAs_counted _ _ _ (Body.silent_unary 1 fun v => Run.silent_pure v)
  obtain ⟨hmatched, hread⟩ :=
    extractors_run_on_the_match_or_on_the_read (Store.reachable_initial []) heager hlazy hcount
  refine ⟨eager, st, lazily, st', heager, hlazy, ?_, ?_⟩
  · intro s found t hexec
    obtain ⟨ran, ⟨given, t', hturn⟩, hcounts⟩ := hmatched _ _ _ (.attempt hexec .done) _ List.mem_cons_self
    cases hturn with
    | noMatch => exact hcounts
    | next hfirst => cases hfirst
  · intro s w t h u hexec hh hinvoke
    have hhistory : History lazily [] s _ u := .attempt hexec (.read (by simp) hh hinvoke .done)
    have hevents := hread _ _ _ hhistory
    obtain ⟨ran, rfl, hcounts⟩ := hevents _ List.mem_cons_self
    obtain ⟨ran, ⟨extractor, hextractor, rfl⟩, hcounts'⟩ :=
      hevents _ (List.mem_cons_of_mem _ List.mem_cons_self)
    cases hextractor
    exact ⟨hcounts, hcounts'⟩

end PatternDispatch.Pattern

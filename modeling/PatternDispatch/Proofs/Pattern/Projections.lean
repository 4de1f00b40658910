-- The law of projections. When what the extractors give does not go by what ran before,
-- it makes no difference whether they run when the target is matched or when its
-- bindings are read; but a lazy match says nothing about the extractors.
import PatternDispatch.Proofs.Pattern.Refusals

namespace PatternDispatch

variable {r : Registry} {target : Ty} {v : Value} {s : RunState}

/-! ## Pure handles -/

namespace Handle

variable {h : Handle}

/-- The answer to a value goes by the value and the classes alone. -/
def Pure (h : Handle) : Prop :=
  ∀ r v s s', ((h.invoke [v]).exec r s).1 = ((h.invoke [v]).exec r s').1

/-- What a pure handle gives of the value, wherever the run stands. -/
def answer (r : Registry) (h : Handle) (v : Value) : Option Value := ((h.invoke [v]).exec r .initial).1

theorem Pure.exec_invoke (hh : h.Pure) (r : Registry) (v : Value) (s : RunState) :
    ((h.invoke [v]).exec r s).1 = h.answer r v := hh r v s .initial

theorem Reads.answer_eq {read : Value → Option Value} (hh : h.Reads read) (r : Registry) (v : Value) :
    h.answer r v = read v := by
  unfold answer
  rw [hh v, Run.exec_ofOption]

theorem Reads.pure {read : Value → Option Value} (hh : h.Reads read) : h.Pure := by
  intro r v s s'
  rw [hh v, Run.exec_ofOption, Run.exec_ofOption]

end Handle

namespace Pattern

variable {p eager lazily : Pattern} {b : Bundle} {extractors : List Handle} {vs : List Value}
  {st st' u u' : Store}

/-! ## What is extracted -/

/-- What all extractors give of a target, in order. Nothing is extracted from null, and
nothing when one of them does not match. -/
def extracted (r : Registry) (extractors : List Handle) (v : Value) : Option (List Value) :=
  if v.isNull then none else extractors.mapM (·.answer r v)

/-- What an extractor gives of the target is accepted by its return type, and is not the
null mark. -/
def Clean (r : Registry) (extractors : List Handle) (v : Value) : Prop :=
  ∀ e ∈ extractors, ∀ w, e.answer r v = some w → e.sig.ret.accepts r w ∧ w ≠ .nullMark

theorem extracted_of_ne (hv : v ≠ .null) : extracted r extractors v = extractors.mapM (·.answer r v) := by
  unfold extracted
  rw [if_neg (mt Value.isNull_iff.mp hv)]

/-- Pure extractors that run on a target extract the same wherever they start. -/
theorem exec_extractors (hpure : ∀ e ∈ extractors, e.Pure) (hv : v ≠ .null) :
    (Run.exec (extractors.mapM fun e => e.invoke [v]) r s).1 = extracted r extractors v := by
  rw [extracted_of_ne hv]
  exact Run.exec_mapM_fst fun e he s => (hpure e he).exec_invoke r v s

/-- Values that are extracted clean can be bundled, and come out as they went in. -/
theorem Clean.accepted (hclean : Clean r extractors v) (hvs : extracted r extractors v = some vs) :
    Bundle.Accepted r (extractors.map (·.sig.ret)) vs ∧ ∀ x ∈ vs, x ≠ .nullMark := by
  have hv : v ≠ .null := by
    rintro rfl
    cases hvs
  rw [extracted_of_ne hv] at hvs
  have hgave := option_mapM_some hvs
  refine ⟨⟨?_, ?_⟩, ?_⟩
  · rw [List.length_map, hgave.length_eq]
  · intro i t x ht hx
    rw [List.getElem?_map] at ht
    obtain ⟨e, he, rfl⟩ := Option.map_eq_some_iff.mp ht
    obtain ⟨x', hx', hanswer⟩ := getElem?_of_forall₂_left hgave he
    cases hx.symm.trans hx'
    exact (hclean e (List.mem_of_getElem? he) x hanswer).1
  · intro x hx
    obtain ⟨e, he, hanswer⟩ := mem_of_forall₂_right hgave hx
    exact (hclean e he x hanswer).2

/-! ## Both ways -/

/-- A lazy projection matches all targets but null, and its bindings are extracted when
they are read. -/
theorem match_ofLazyProjection (h : (ofLazyProjection target extractors).exec st = (.ok p, st'))
    (hpure : ∀ e ∈ extractors, e.Pure) (v : Value) :
    ((p.matchBindings v).exec r s).1 = extracted r extractors v ∧
      ((p.isMatch v).exec r s).1 = some (!v.isNull) := by
  obtain ⟨tryMatch, id, hof, hbody, -⟩ := ofLazyProjection_inv h
  have hattempt : ∀ v, p.tryMatch.invoke [v] = pure v := by
    intro v
    rw [hof.attempt_eq, Handle.invoke, hbody]
    rfl
  by_cases hv : v = .null
  · subst hv
    exact match_of_null (hattempt .null)
  · have hcarrier : (p.matchCarrier v).exec r s = (some v, s) :=
      exec_matchCarrier_iff.mpr ⟨by rw [hattempt]; rfl, hv⟩
    refine ⟨?_, ?_⟩
    · rw [matchBindings, Run.exec_bind_of_some hcarrier, hof.bindings_eq]
      exact exec_extractors hpure hv
    · rw [exec_isMatch, hcarrier]
      simp [mt Value.isNull_iff.mp hv]

/-- An eager projection matches when everything is extracted, and binds that. -/
theorem match_ofEagerProjection (hst : st.Reachable) (hwords : extractors.length < 2 ^ 64)
    (h : (ofEagerProjection target extractors).exec st = (.ok p, st')) (hpure : ∀ e ∈ extractors, e.Pure)
    (hclean : Clean r extractors v) :
    ((p.matchBindings v).exec r s).1 = extracted r extractors v ∧
      ((p.isMatch v).exec r s).1 = some (extracted r extractors v).isSome := by
  obtain ⟨b, u, hb, -⟩ := eagerOf_of_ofEagerProjection h
  obtain ⟨hdescriptor, hunbundles, hnull, htry⟩ := ofEagerProjection_inv hst hwords hb h
  by_cases hv : v = .null
  · subst hv
    exact match_of_null hnull
  have hattempt := htry v hv
  rw [extract_eq (Bundle.carries_of_ofTypes hst (by rwa [List.length_map]) hb)] at hattempt
  have hextracted : (Run.exec _ r s).1 = _ := exec_extractors hpure hv
  rcases hvs : Run.exec (extractors.mapM fun e => e.invoke [v]) r s with ⟨_ | vs, t⟩
  · rw [hvs] at hextracted
    rw [← hextracted]
    exact hunbundles.match_of_none hattempt hvs
  · rw [hvs] at hextracted
    obtain ⟨haccepted, hmarks⟩ := hclean.accepted hextracted.symm
    rw [← hextracted]
    exact hunbundles.match_of_accepted hattempt hvs (by rwa [hdescriptor]) hmarks

/-- An eager projection can be built on extractors that take the target, if their return
types have a bundle. -/
theorem ofEagerProjection_ok (htake : AllTake target extractors) (hst : st.Reachable)
    (hwords : extractors.length < 2 ^ 64)
    (hb : (Bundle.ofTypes (extractors.map (·.sig.ret))).exec st = (.ok b, u)) :
    ∃ p st', (ofEagerProjection target extractors).exec st = (.ok p, st') := by
  have hcarries := Bundle.carries_of_ofTypes hst (by rwa [List.length_map]) hb
  unfold ofEagerProjection
  rw [Build.exec_bind, Build.exec_registry]
  simp only [projected_of_allTake _ htake]
  rw [Build.exec_bind, Build.exec_ofExcept]
  simp only
  rw [Build.exec_bind, hb]
  simp only
  exact exists_made_of_bundle hcarries _ u

/-! ## The law -/

/-- An eager and a lazy projection on the same pure extractors have the same descriptor.
On a target of which clean values are extracted, both bind what is extracted: nothing if
the target is null or an extractor does not match, and otherwise all values in order.
The eager one matches just when there is something to bind, the lazy one every target but
null. -/
theorem eager_and_lazy_projections_bind_alike (hst : st.Reachable) (hwords : extractors.length < 2 ^ 64)
    (heager : (ofEagerProjection target extractors).exec st = (.ok eager, st'))
    (hlazy : (ofLazyProjection target extractors).exec u = (.ok lazily, u'))
    (hpure : ∀ e ∈ extractors, e.Pure) :
    eager.descriptor = lazily.descriptor ∧
    ∀ r v, Clean r extractors v → ∀ s s',
      ((eager.matchBindings v).exec r s).1 = ((lazily.matchBindings v).exec r s').1 ∧
      ((eager.matchBindings v).exec r s).1 = extracted r extractors v ∧
      ((eager.isMatch v).exec r s).1 = some (extracted r extractors v).isSome ∧
      ((lazily.isMatch v).exec r s').1 = some (!v.isNull) := by
  refine ⟨?_, ?_⟩
  · obtain ⟨b, u, -, he⟩ := eagerOf_of_ofEagerProjection heager
    obtain ⟨tryMatch, id, hof, -⟩ := ofLazyProjection_inv hlazy
    rw [he.descriptor_eq, hof.descriptor_eq]
  · intro r v hclean s s'
    obtain ⟨hbinds, hmatches⟩ := match_ofEagerProjection (s := s) hst hwords heager hpure hclean
    obtain ⟨hbinds', hmatches'⟩ := match_ofLazyProjection (r := r) (s := s') hlazy hpure v
    exact ⟨by rw [hbinds, hbinds'], hbinds, hmatches, hmatches'⟩

/-- What it gives of the string "x" is null, and it matches nothing else. -/
def nullOfX : Handle :=
  ⟨.unary .string .string, .unary 2 fun v => Run.ofOption (if v.equals (.str "x") then some .null else none)⟩

/-- Gives the target itself. -/
def itself : Handle := ⟨.unary .string .string, .identity 1⟩

theorem reads_nullOfX : nullOfX.Reads fun v => if v.equals (.str "x") then some .null else none := fun _ => rfl

theorem reads_itself : itself.Reads some := fun _ => rfl

theorem extracted_of_string (x : String) :
    extracted r [itself, nullOfX] (.str x) = if x = "x" then some [.str x, .null] else none := by
  rw [extracted_of_ne Value.noConfusion]
  simp only [List.mapM_cons, List.mapM_nil, reads_itself.answer_eq, reads_nullOfX.answer_eq, Value.equals, beq_iff_eq]
  split <;> rfl

/-- The law on these readers: both bind the string "x" and null; of another string nothing
is bound, and only the lazy projection matches it. -/
theorem readers_of_x_bind_alike :
    ∃ eager st lazily st', (ofEagerProjection .string [itself, nullOfX]).exec (.initial []) = (.ok eager, st) ∧
      (ofLazyProjection .string [itself, nullOfX]).exec st = (.ok lazily, st') ∧
      eager.descriptor = lazily.descriptor ∧
      ((eager.matchBindings (.str "x")).exec .initial .initial).1 = some [.str "x", .null] ∧
      ((lazily.matchBindings (.str "x")).exec .initial .initial).1 = some [.str "x", .null] ∧
      ((eager.isMatch (.str "y")).exec .initial .initial).1 = some false ∧
      ((lazily.isMatch (.str "y")).exec .initial .initial).1 = some true := by
  obtain ⟨b, u, hb⟩ := Bundle.two_strings_ok (Store.reachable_initial []) rfl
  have htake : AllTake .string [itself, nullOfX] := by
    intro e he
    rcases List.mem_pair.mp he with rfl | rfl
    · rfl
    · rfl
  obtain ⟨eager, st, heager⟩ := ofEagerProjection_ok htake (Store.reachable_initial []) (by decide) hb
  obtain ⟨lazily, st', hlazy⟩ : ∃ lazily st', (ofLazyProjection .string [itself, nullOfX]).exec st = (.ok lazily, st') :=
    ⟨_, _, rfl⟩
  have hpure : ∀ e ∈ [itself, nullOfX], e.Pure := by
    intro e he
    rcases List.mem_pair.mp he with rfl | rfl
    · exact reads_itself.pure
    · exact reads_nullOfX.pure
  obtain ⟨hdescriptor, law⟩ := eager_and_lazy_projections_bind_alike (Store.reachable_initial []) (by decide)
    heager hlazy hpure
  have hclean : ∀ x, Clean .initial [itself, nullOfX] (.str x) := by
    intro x e he w hw
    rcases List.mem_pair.mp he with rfl | rfl
    · rw [reads_itself.answer_eq] at hw
      cases hw
      exact ⟨rfl, Value.noConfusion⟩
    · rw [reads_nullOfX.answer_eq] at hw
      split at hw
      · cases hw
        exact ⟨rfl, Value.noConfusion⟩
      · cases hw
  obtain ⟨hbinds, hextracted, -, -⟩ := law .initial (.str "x") (hclean "x") .initial .initial
  obtain ⟨-, -, heager', hlazy'⟩ := law .initial (.str "y") (hclean "y") .initial .initial
  rw [hextracted] at hbinds
  rw [extracted_of_string, if_pos rfl] at hextracted hbinds
  rw [extracted_of_string, if_neg (by decide)] at heager'
  exact ⟨eager, st, lazily, st', heager, hlazy, hdescriptor, hextracted, hbinds.symm, heager', hlazy'⟩

end Pattern

end PatternDispatch

-- The law of nested patterns: all patterns match, or the nested one does not, and
-- its bindings are those of all of them in order.
import Mathlib.Data.List.ReduceOption
import PatternDispatch.Pattern.Combine
import PatternDispatch.Proofs.Pattern.Builders

namespace PatternDispatch.Pattern

variable {outer p : Pattern} {inners : List (Option Pattern)} {present : List (Nat × Pattern)}
  {types : List Ty} {own all : List Value} {r : Registry} {s s' : RunState} {st st' : Store} {j : Nat}

/-! ## What all patterns give -/

/-- The present inner patterns from position `j` on match, one after the other: each
one, adapted to the type of the outer binding at its position, binds the next list. -/
inductive InnersGive (r : Registry) (types : List Ty) (own : List Value) :
    Nat → List (Option Pattern) → RunState → List (List Value) → RunState → Prop
  | nil {j : Nat} {s : RunState} : InnersGive r types own j [] s [] s
  | absent {j : Nat} {inners : List (Option Pattern)} {s s' : RunState} {lists : List (List Value)} :
    InnersGive r types own (j + 1) inners s lists s' →
    InnersGive r types own j (none :: inners) s lists s'
  | present {j : Nat} {inner q : Pattern} {inners : List (Option Pattern)} {s u s' : RunState} {t : Ty}
      {v : Value} {vs : List Value} {lists : List (List Value)} :
    types[j]? = some t → own[j]? = some v → inner.Adapts t q →
    (q.matchBindings v).exec r s = (some vs, u) →
    InnersGive r types own (j + 1) inners u lists s' →
    InnersGive r types own j (some inner :: inners) s (vs :: lists) s'

/-- The outer pattern matches the target and binds `own`, and then all present inner
patterns match. -/
def AllGive (r : Registry) (outer : Pattern) (inners : List (Option Pattern)) (target : Value) (s : RunState)
    (own : List Value) (lists : List (List Value)) (s' : RunState) : Prop :=
  ∃ u, (outer.matchBindings target).exec r s = (some own, u) ∧
    InnersGive r outer.descriptor.bindings own 0 inners u lists s'

/-! ## The inner patterns -/

theorem adaptInners_some {inner : Pattern}
    (h : (adaptInners types j (some inner :: inners)).exec st = (.ok present, st')) :
    ∃ t q rest u, types[j]? = some t ∧ (adapt inner t).exec st = (.ok q, u) ∧
      (adaptInners types (j + 1) inners).exec u = (.ok rest, st') ∧ present = (j, q) :: rest := by
  unfold adaptInners at h
  cases ht : types[j]? with
  | none =>
    rw [ht] at h
    cases h
  | some t =>
    rw [ht] at h
    obtain ⟨q, u, hadapt, h⟩ := Build.exec_bind_ok h
    obtain ⟨rest, u', hrest, h⟩ := Build.exec_bind_ok h
    cases h
    exact ⟨t, q, rest, u, rfl, hadapt, hrest, rfl⟩

theorem steps_adaptInners (types : List Ty) (j : Nat) (inners : List (Option Pattern)) :
    (adaptInners types j inners).Steps := by
  induction inners generalizing j with
  | nil => exact Build.steps_pure []
  | cons inner inners ih =>
    cases inner with
    | none => exact ih (j + 1)
    | some inner =>
      unfold adaptInners
      have hrest : ∀ q, (do return (j, q) :: (← adaptInners types (j + 1) inners)).Steps :=
        fun q => (ih (j + 1)).bind fun _ => Build.steps_pure _
      cases types[j]? with
      | none => exact (Build.steps_throw _).bind hrest
      | some t => exact (steps_adapt inner t).bind hrest

/-- Adapting keeps the types of the bindings. -/
theorem bindings_adaptInners (h : (adaptInners types j inners).exec st = (.ok present, st')) :
    (present.flatMap fun (_, q) => q.descriptor.bindings) =
      inners.reduceOption.flatMap (·.descriptor.bindings) := by
  induction inners generalizing j st present with
  | nil =>
    cases h
    rfl
  | cons inner inners ih =>
    cases inner with
    | none => exact ih h
    | some inner =>
      obtain ⟨t, q, rest, u, -, hadapt, hrest, rfl⟩ := adaptInners_some h
      have hq : inner.Adapts t q := ⟨st, u, hadapt⟩
      simp only [List.flatMap_cons, List.reduceOption_cons_of_some, hq.bindings_eq, ih hrest]

/-- Each inner pattern gives a binding of each of its types. -/
theorem length_innerBindings (hinners : ∀ q, some q ∈ inners → q.Paired)
    (h : (adaptInners types j inners).exec st = (.ok present, st'))
    (hall : (innerBindings own present).exec r s = (some all, s')) :
    all.length = (present.flatMap fun (_, q) => q.descriptor.bindings).length := by
  induction inners generalizing j st present s all with
  | nil =>
    cases h
    cases hall
    rfl
  | cons inner inners ih =>
    have hrest := fun q hq => hinners q (List.mem_cons_of_mem _ hq)
    cases inner with
    | none => exact ih hrest h hall
    | some inner =>
      obtain ⟨t, q, rest, u, -, hadapt, hinner, rfl⟩ := adaptInners_some h
      have hq : inner.Adapts t q := ⟨st, u, hadapt⟩
      unfold innerBindings at hall
      obtain ⟨v, _, -, hall⟩ := Run.exec_bind_some hall
      obtain ⟨vs, _, hvs, hall⟩ := Run.exec_bind_some hall
      obtain ⟨others, _, hothers, hall⟩ := Run.exec_bind_some hall
      cases hall
      have hpaired := hq.paired (hinners inner List.mem_cons_self)
      simp only [List.flatMap_cons, List.length_append, length_matchBindings hvs, hpaired.count,
        ih hrest hinner hothers]

/-- The loop over the present inner patterns gives what they give one by one. -/
theorem exec_innerBindings_iff (h : (adaptInners types j inners).exec st = (.ok present, st')) :
    (innerBindings own present).exec r s = (some all, s') ↔
      ∃ lists, InnersGive r types own j inners s lists s' ∧ all = lists.flatten := by
  induction inners generalizing j st present s all with
  | nil =>
    cases h
    refine ⟨?_, ?_⟩
    · intro hall
      cases hall
      exact ⟨[], .nil, rfl⟩
    · rintro ⟨lists, hgive, rfl⟩
      cases hgive
      rfl
  | cons inner inners ih =>
    cases inner with
    | none =>
      refine (ih h).trans ⟨?_, ?_⟩
      · rintro ⟨lists, hgive, rfl⟩
        exact ⟨lists, .absent hgive, rfl⟩
      · rintro ⟨lists, hgive, rfl⟩
        cases hgive with
        | absent hgive => exact ⟨lists, hgive, rfl⟩
    | some inner =>
      obtain ⟨t, q, rest, u, ht, hadapt, hinner, rfl⟩ := adaptInners_some h
      have hq : inner.Adapts t q := ⟨st, u, hadapt⟩
      unfold innerBindings
      refine ⟨?_, ?_⟩
      · intro hall
        obtain ⟨v, _, hv, hall⟩ := Run.exec_bind_some hall
        obtain ⟨vs, _, hvs, hall⟩ := Run.exec_bind_some hall
        obtain ⟨others, _, hothers, hall⟩ := Run.exec_bind_some hall
        cases hall
        obtain ⟨lists, hgive, rfl⟩ := (ih hinner).mp hothers
        rw [Run.exec_ofOption] at hv
        obtain ⟨hown, rfl⟩ := Prod.mk.inj hv
        exact ⟨vs :: lists, .present ht hown hq hvs hgive, rfl⟩
      · rintro ⟨lists, hgive, rfl⟩
        cases hgive with
        | present ht' hv hq' hvs hgive =>
          obtain rfl := Option.some.inj (ht.symm.trans ht')
          rw [hq'.matchBindings_eq hq] at hvs
          have hothers := (ih hinner).mpr ⟨_, hgive, rfl⟩
          rw [hv]
          exact (Run.exec_bind_of_some hvs).trans (Run.exec_bind_of_some hothers)

/-! ## All patterns -/

/-- Match the outer pattern, then the inner ones. -/
def gather (outer : Pattern) (present : List (Nat × Pattern)) (target : Value) : Run (List Value) := do
  let own ← outer.matchBindings target
  return own ++ (← innerBindings own present)

theorem matchNested_eq (outer : Pattern) (present : List (Nat × Pattern)) (b : Bundle) (target : Value) :
    matchNested outer present b target = gather outer present target >>= b.construct := by
  simp only [matchNested, gather, bind_assoc, pure_bind]

theorem exec_gather_iff {target : Value}
    (h : (adaptInners outer.descriptor.bindings 0 inners).exec st = (.ok present, st')) :
    (gather outer present target).exec r s = (some all, s') ↔
      ∃ own lists, AllGive r outer inners target s own lists s' ∧ all = own ++ lists.flatten := by
  unfold gather
  refine ⟨?_, ?_⟩
  · intro hall
    obtain ⟨own, u, hown, hall⟩ := Run.exec_bind_some hall
    obtain ⟨others, _, hothers, hall⟩ := Run.exec_bind_some hall
    cases hall
    obtain ⟨lists, hgive, rfl⟩ := (exec_innerBindings_iff h).mp hothers
    exact ⟨own, lists, ⟨u, hown, hgive⟩, rfl⟩
  · rintro ⟨own, lists, ⟨u, hown, hgive⟩, rfl⟩
    have hothers := (exec_innerBindings_iff h).mpr ⟨lists, hgive, rfl⟩
    exact (Run.exec_bind_of_some hown).trans (Run.exec_bind_of_some hothers)

/-- What a nested pattern is made of. -/
structure NestedOf (p outer : Pattern) (inners : List (Option Pattern)) (present : List (Nat × Pattern))
    (b : Bundle) : Prop where
  descriptor_eq : p.descriptor = ⟨outer.descriptor.target,
    outer.descriptor.bindings ++ inners.reduceOption.flatMap (·.descriptor.bindings)⟩
  attempt : ∀ v, p.tryMatch.invoke [v] = Run.orNull (gather outer present v >>= b.construct)
  bundle : b.Given p.descriptor.bindings
  unbundles : p.descriptor.bindings.length < 2 ^ 64 → p.Unbundles b
  adapted : ∃ st st', (adaptInners outer.descriptor.bindings 0 inners).exec st = (.ok present, st')

theorem nestedOf_of_nested (hst : st.Reachable) (h : (nested outer inners).exec st = (.ok p, st')) :
    ∃ present b, NestedOf p outer inners present b := by
  unfold nested at h
  simp only at h
  split at h
  · cases h
  · obtain ⟨present, u, hpresent, h⟩ := Build.exec_bind_ok h
    obtain ⟨b, u', hb, h⟩ := Build.exec_bind_ok h
    obtain ⟨hdescriptor, hunbundles, htry⟩ := made_of_bundle h
    have hreachable := (steps_adaptInners _ _ _).reachable hst hpresent
    refine ⟨present, b, ?_, ?_, ?_, ?_, st, u, hpresent⟩
    · rw [hdescriptor, bindings_adaptInners hpresent]
    · intro v
      rw [htry v, ← matchNested_eq]
    · rw [hdescriptor]
      exact ⟨u, u', hreachable, hb⟩
    · intro hwords
      rw [hdescriptor] at hwords
      exact hunbundles (Bundle.carries_of_ofTypes hreachable hwords hb)

/-- A carrier is a bundle of all the bindings, and the components are its own. -/
theorem NestedOf.bundled {target w : Value} (hn : NestedOf p outer inners present b)
    (hmatch : (p.matchCarrier target).exec r s = (some w, s')) :
    ∃ all u, (gather outer present target).exec r s = (some all, u) ∧
      ((b.construct all).exec r u).1 = some w ∧ p.Unbundles b := by
  obtain ⟨hattempt, hne⟩ := exec_matchCarrier_iff.mp hmatch
  rw [hn.attempt target] at hattempt
  obtain ⟨all, u, hall, hw⟩ := Run.exec_bind_some (Run.exec_of_orNull hattempt hne)
  have hw := congrArg Prod.fst hw
  exact ⟨all, u, hall, hw, hn.unbundles (hn.bundle.words (Bundle.invoke_of_construct hw))⟩

/-- A nested pattern can be built when all inner patterns can be adapted and the
types of all bindings have a bundle. -/
theorem nested_ok {b : Bundle} {u : Store} (hst : st.Reachable)
    (hcount : inners.length ≤ outer.descriptor.bindings.length)
    (hpresent : (adaptInners outer.descriptor.bindings 0 inners).exec st = (.ok present, st'))
    (hwords : (outer.descriptor.bindings ++
      inners.reduceOption.flatMap (·.descriptor.bindings)).length < 2 ^ 64)
    (hb : (Bundle.ofTypes (outer.descriptor.bindings ++
      inners.reduceOption.flatMap (·.descriptor.bindings))).exec st' = (.ok b, u)) :
    ∃ p t, (nested outer inners).exec st = (.ok p, t) := by
  have hreachable := (steps_adaptInners _ _ _).reachable hst hpresent
  have hcarries := Bundle.carries_of_ofTypes hreachable hwords hb
  rw [← bindings_adaptInners hpresent] at hb hcarries
  unfold nested
  simp only
  rw [if_neg (Nat.not_lt.mpr hcount), Build.exec_bind, hpresent]
  simp only
  rw [Build.exec_bind, hb]
  exact exists_made_of_bundle (d := ⟨outer.descriptor.target, _⟩) hcarries _ u

theorem length_gather {target : Value} (hn : NestedOf p outer inners present b) (houter : outer.Paired)
    (hinners : ∀ q, some q ∈ inners → q.Paired)
    (hall : (gather outer present target).exec r s = (some all, s')) :
    all.length = p.descriptor.bindings.length := by
  obtain ⟨st, st', hadapted⟩ := hn.adapted
  obtain ⟨own, u, hown, hall⟩ := Run.exec_bind_some hall
  obtain ⟨others, _, hothers, hall⟩ := Run.exec_bind_some hall
  cases hall
  rw [hn.descriptor_eq, List.length_append, List.length_append, length_matchBindings hown, houter.count,
    length_innerBindings hinners hadapted hothers, bindings_adaptInners hadapted]

theorem builds_nested (outer : Pattern) (inners : List (Option Pattern)) : Builds (nested outer inners) := by
  unfold nested
  simp only
  by_cases hcount : outer.descriptor.bindings.length < inners.length
  · rw [if_pos hcount]
    exact .after (Build.steps_throw _) fun _ => .after (steps_adaptInners _ _ _) fun _ =>
      .after (Bundle.steps_ofTypes _) fun _ => .after (Build.steps_handle _ _) fun _ => builds_make _ _ _
  · rw [if_neg hcount]
    exact .after (steps_adaptInners _ _ _) fun _ =>
      .after (Bundle.steps_ofTypes _) fun _ => .after (Build.steps_handle _ _) fun _ => builds_make _ _ _

/-! ## The law -/

/-- A nested pattern matches when the outer pattern and all present inner ones
match, if their bindings are accepted by their types and none of them is the null
mark. It binds what they bind, in order; null is a binding like any other. The
number of bindings is a word, as the length of every list in memory is. -/
theorem a_nested_pattern_matches_when_all_match {target : Value} (hst : st.Reachable)
    (h : (nested outer inners).exec st = (.ok p, st')) (houter : outer.Paired)
    (hinners : ∀ q, some q ∈ inners → q.Paired) (hwords : p.descriptor.bindings.length < 2 ^ 64)
    (haccepts : ∀ own lists s', AllGive r outer inners target s own lists s' →
      ∀ (i : Nat) t v, p.descriptor.bindings[i]? = some t → (own ++ lists.flatten)[i]? = some v →
        t.accepts r v ∧ v ≠ .nullMark) :
    p.Paired ∧
      p.descriptor = ⟨outer.descriptor.target,
        outer.descriptor.bindings ++ inners.reduceOption.flatMap (·.descriptor.bindings)⟩ ∧
      (∀ all, ((p.matchBindings target).exec r s).1 = some all ↔
        ∃ own lists s', AllGive r outer inners target s own lists s' ∧ all = own ++ lists.flatten) ∧
      ∃ m, ((p.isMatch target).exec r s).1 = some m ∧
        (m = true ↔ ∃ own lists s', AllGive r outer inners target s own lists s') := by
  obtain ⟨present, b, hn⟩ := nestedOf_of_nested hst h
  obtain ⟨u, u', hadapted⟩ := hn.adapted
  have hunbundles := hn.unbundles hwords
  refine ⟨(builds_nested outer inners).paired st p st' h, hn.descriptor_eq, ?_⟩
  rcases hgather : (gather outer present target).exec r s with ⟨_ | all, s'⟩
  · obtain ⟨hbindings, hmatch⟩ := hunbundles.match_of_none (hn.attempt target) hgather
    have hnone : ∀ own lists t, ¬ AllGive r outer inners target s own lists t := by
      intro own lists t hgive
      have := (exec_gather_iff hadapted).mpr ⟨own, lists, hgive, rfl⟩
      rw [hgather] at this
      cases this
    refine ⟨?_, false, hmatch, ?_⟩
    · intro all
      rw [hbindings]
      apply iff_of_false
      · intro hsome
        cases hsome
      · rintro ⟨own, lists, t, hgive, -⟩
        exact hnone own lists t hgive
    · apply iff_of_false Bool.false_ne_true
      rintro ⟨own, lists, t, hgive⟩
      exact hnone own lists t hgive
  · obtain ⟨own, lists, hgive, rfl⟩ := (exec_gather_iff hadapted).mp hgather
    have hfit := haccepts own lists s' hgive
    have hlen := length_gather hn houter hinners hgather
    have haccepted : Bundle.Accepted r p.descriptor.bindings (own ++ lists.flatten) :=
      ⟨hlen, fun i t v ht hv => (hfit i t v ht hv).1⟩
    have hmarks : ∀ v ∈ own ++ lists.flatten, v ≠ .nullMark := by
      intro v hv
      obtain ⟨i, hi⟩ := List.mem_iff_getElem?.mp hv
      have hlt := (List.getElem?_eq_some_iff.mp hi).1
      exact (hfit i _ v (List.getElem?_eq_getElem (hlen ▸ hlt)) hi).2
    obtain ⟨hbindings, hmatch⟩ :=
      hunbundles.match_of_accepted (hn.attempt target) hgather haccepted hmarks
    refine ⟨?_, true, hmatch, ?_⟩
    · intro all
      rw [hbindings]
      refine ⟨?_, ?_⟩
      · intro heq
        cases heq
        exact ⟨own, lists, s', hgive, rfl⟩
      · rintro ⟨own', lists', t, hgive', rfl⟩
        have hsame := (exec_gather_iff hadapted).mpr ⟨own', lists', hgive', rfl⟩
        rw [hgather] at hsame
        exact (Prod.mk.inj hsame).1
    · exact iff_of_true rfl ⟨own, lists, s', hgive⟩

/-- The law on a string with a pattern for strings inside, which binds it again. -/
theorem a_string_inside_a_string_matches :
    ∃ outer p st st', st.Reachable ∧ outer.Paired ∧
      (nested outer [some outer]).exec st = (.ok p, st') ∧
      (∀ all, ((p.matchBindings (.str "a")).exec .initial .initial).1 = some all ↔
        ∃ own lists s', AllGive .initial outer [some outer] (.str "a") .initial own lists s' ∧
          all = own ++ lists.flatten) ∧
      ((p.matchBindings (.str "a")).exec .initial .initial).1 = some [.str "a", .str "a"] := by
  obtain ⟨outer, st, present, houter, hpresent, hgather, hdescriptor, hregistry⟩ :
      ∃ outer st present,
        (ofType .string).exec (.initial []) = (.ok outer, st) ∧
        (adaptInners outer.descriptor.bindings 0 [some outer]).exec st = (.ok present, st) ∧
        (gather outer present (.str "a")).exec .initial .initial = (some [.str "a", .str "a"], .initial) ∧
        outer.descriptor = ⟨.string, [.string]⟩ ∧ st.registry = .initial :=
    ⟨_, _, _, rfl, rfl, rfl, rfl, rfl⟩
  have hst := (builds_ofType .string).steps.reachable (Store.reachable_initial []) houter
  have hpaired := (builds_ofType .string).paired _ _ _ houter
  have htypes : outer.descriptor.bindings ++ [some outer].reduceOption.flatMap (·.descriptor.bindings) =
      [.string, .string] := by
    simp [List.reduceOption, hdescriptor]
  obtain ⟨b, u, hb⟩ := Bundle.two_strings_ok hst hregistry
  obtain ⟨p, st', hnested⟩ := nested_ok hst (by simp [hdescriptor]) hpresent
    (by rw [htypes]; decide) (by rw [htypes]; exact hb)
  obtain ⟨_, _, hn⟩ := nestedOf_of_nested hst hnested
  have hbindings : p.descriptor.bindings = [.string, .string] := by rw [hn.descriptor_eq, htypes]
  have haccepts : ∀ own lists s', AllGive .initial outer [some outer] (.str "a") .initial own lists s' →
      ∀ (i : Nat) t v, p.descriptor.bindings[i]? = some t → (own ++ lists.flatten)[i]? = some v →
        t.accepts .initial v ∧ v ≠ .nullMark := by
    intro own lists s' hgive i t v ht hv
    have hsame := (exec_gather_iff hpresent).mpr ⟨own, lists, hgive, rfl⟩
    rw [hgather] at hsame
    rw [← Option.some.inj (Prod.mk.inj hsame).1] at hv
    rw [hbindings] at ht
    match i with
    | 0 | 1 =>
      cases ht
      cases hv
      exact ⟨rfl, Value.noConfusion⟩
    | _ + 2 => cases ht
  have law := a_nested_pattern_matches_when_all_match hst hnested hpaired (by simpa using hpaired)
    (by rw [hbindings]; decide) haccepts
  refine ⟨outer, p, st, st', hst, hpaired, hnested, law.2.2.1, ?_⟩
  obtain ⟨own, lists, hgive, hall⟩ := (exec_gather_iff hpresent).mp hgather
  exact (law.2.2.1 _).mpr ⟨own, lists, _, hgive, hall⟩

end PatternDispatch.Pattern

-- The law of the order in which a nested pattern evaluates. The outer pattern is matched and
-- read, and then the inner ones, one after another; the first thing that fails is the last
-- one that runs, and what is bound is bound for good.
import PatternDispatch.Proofs.Pattern.Adapting
import PatternDispatch.Proofs.Pattern.Extraction

namespace PatternDispatch.Pattern

variable {p outer : Pattern} {inners : List (Option Pattern)} {present : List (Nat × Pattern)} {b : Bundle}
  {types : List Ty} {own : List Value} {name : Handle → String} {v target : Value} {ran : List Handle}
  {given : Option (List Value)} {r : Registry} {s t : RunState} {st st' : Store} {j : Nat}

/-! ## One pattern -/

/-- The handles of a pattern, in the order in which they run. -/
def handles (p : Pattern) : List Handle := p.tryMatch :: p.components

/-- The pattern is matched against the value, and all its bindings are read: `ran` are the
handles that ran, and `given` are the bindings if nothing failed. -/
inductive Attempted (r : Registry) (p : Pattern) (v : Value) (s : RunState) :
    List Handle → Option (List Value) → RunState → Prop
  /-- The match attempt gives no carrier, and no component runs. -/
  | fails {found : Option Value} {t : RunState} :
    (p.tryMatch.invoke [v]).exec r s = (found, t) → found.getD .null = .null →
    Attempted r p v s [p.tryMatch] none t
  /-- The components run on the carrier, in turn. -/
  | reads {w : Value} {t u : RunState} {ran : List Handle} {given : Option (List Value)} :
    (p.tryMatch.invoke [v]).exec r s = (some w, t) → w ≠ .null →
    Handle.InTurn r w p.components t ran given u → Attempted r p v s (p.tryMatch :: ran) given u

/-- All bindings are got by such an attempt. -/
theorem exists_attempted (r : Registry) (p : Pattern) (v : Value) (s : RunState) :
    ∃ ran given t, Attempted r p v s ran given t ∧ (p.matchBindings v).exec r s = (given, t) := by
  rcases hattempt : (p.tryMatch.invoke [v]).exec r s with ⟨found, t⟩
  by_cases hnull : found.getD .null = .null
  · have hcarrier := exec_matchCarrier_of_null hattempt hnull
    exact ⟨[p.tryMatch], none, t, .fails hattempt hnull, Run.exec_bind_of_none hcarrier⟩
  · cases found with
    | none => exact absurd rfl hnull
    | some w =>
      have hcarrier := exec_matchCarrier_iff.mpr ⟨hattempt, hnull⟩
      obtain ⟨ran, given, u, hturn, hreads⟩ := Handle.exists_inTurn r w p.components t
      exact ⟨_, given, u, .reads hattempt hnull hturn, (Run.exec_bind_of_some hcarrier).trans hreads⟩

theorem Attempted.prefix_all (h : Attempted r p v s ran given t) : ran <+: p.handles := by
  cases h with
  | fails => simp [handles]
  | reads _ _ hturn => simpa [handles] using hturn.prefix_all

theorem Attempted.eq_all (h : Attempted r p v s ran given t) (hgiven : given.isSome) : ran = p.handles := by
  cases h with
  | fails => simp at hgiven
  | reads _ _ hturn => rw [hturn.eq_all hgiven, handles]

theorem Attempted.counts (h : Attempted r p v s ran given t) (hcount : ∀ h ∈ p.handles, h.CountsAs (name h)) :
    s.Counts (ran.map name) t := by
  have hmatch := hcount p.tryMatch List.mem_cons_self [v] r s
  cases h with
  | fails hattempt => rwa [hattempt] at hmatch
  | reads hattempt _ hturn =>
    rw [hattempt] at hmatch
    exact hmatch.trans (hturn.counts fun h hh => hcount h (List.mem_cons_of_mem _ hh))

/-! ## The inner patterns -/

/-- The present inner patterns from position `j` on are matched and read, one after the
other, each against the outer binding at its position. An inner pattern whose guard does not
let the binding through runs nothing, and whatever fails is the last thing that happens. -/
inductive InnersAttempted (r : Registry) (types : List Ty) (own : List Value) :
    Nat → List (Option Pattern) → RunState → List Handle → Option (List Value) → RunState → Prop
  | nil {j : Nat} {s : RunState} : InnersAttempted r types own j [] s [] (some []) s
  | absent {j : Nat} {inners : List (Option Pattern)} {s t : RunState} {ran : List Handle}
      {given : Option (List Value)} :
    InnersAttempted r types own (j + 1) inners s ran given t →
    InnersAttempted r types own j (none :: inners) s ran given t
  | turnedAway {j : Nat} {inner : Pattern} {inners : List (Option Pattern)} {s : RunState} {ty : Ty} {v : Value} :
    types[j]? = some ty → own[j]? = some v → ¬ Guard.passes r inner.descriptor.target ty v →
    InnersAttempted r types own j (some inner :: inners) s [] none s
  | fails {j : Nat} {inner : Pattern} {inners : List (Option Pattern)} {s t : RunState} {ty : Ty} {v : Value}
      {ran : List Handle} :
    types[j]? = some ty → own[j]? = some v → Guard.passes r inner.descriptor.target ty v →
    Attempted r inner v s ran none t → InnersAttempted r types own j (some inner :: inners) s ran none t
  | binds {j : Nat} {inner : Pattern} {inners : List (Option Pattern)} {s t u : RunState} {ty : Ty} {v : Value}
      {vs : List Value} {ran rest : List Handle} {given : Option (List Value)} :
    types[j]? = some ty → own[j]? = some v → Guard.passes r inner.descriptor.target ty v →
    Attempted r inner v s ran (some vs) t → InnersAttempted r types own (j + 1) inners t rest given u →
    InnersAttempted r types own j (some inner :: inners) s (ran ++ rest) (given.map (vs ++ ·)) u

/-- The loop over the adapted inner patterns attempts them one by one. -/
theorem exists_innersAttempted (h : (adaptInners types j inners).exec st = (.ok present, st'))
    (hown : own.length = types.length) (r : Registry) (s : RunState) :
    ∃ ran given t, InnersAttempted r types own j inners s ran given t ∧
      (innerBindings own present).exec r s = (given, t) := by
  induction inners generalizing j st present s with
  | nil =>
    cases h
    exact ⟨[], some [], s, .nil, rfl⟩
  | cons inner inners ih =>
    cases inner with
    | none =>
      obtain ⟨ran, given, t, hinners, hexec⟩ := ih h s
      exact ⟨ran, given, t, .absent hinners, hexec⟩
    | some inner =>
      obtain ⟨ty, q, rest, u, hty, hadapt, hrest, rfl⟩ := adaptInners_some h
      have hj : j < own.length := hown ▸ (List.getElem?_eq_some_iff.mp hty).1
      obtain ⟨v, hv⟩ : ∃ v, own[j]? = some v := ⟨_, List.getElem?_eq_getElem hj⟩
      have hbindings := Adapts.exec_matchBindings (r := r) (s := s) ⟨st, u, hadapt⟩ v
      have hloop : innerBindings own ((j, q) :: rest) =
          q.matchBindings v >>= fun vs => return vs ++ (← innerBindings own rest) := by
        rw [innerBindings, hv]
        rfl
      rw [hloop]
      by_cases hpass : Guard.passes r inner.descriptor.target ty v
      · rw [if_pos hpass] at hbindings
        obtain ⟨ran, given, t, hattempted, hexec⟩ := exists_attempted r inner v s
        rw [hexec] at hbindings
        cases given with
        | none => exact ⟨ran, none, t, .fails hty hv hpass hattempted, Run.exec_bind_of_none hbindings⟩
        | some vs =>
          obtain ⟨ran', given, t', hinners, hexec'⟩ := ih hrest t
          refine ⟨ran ++ ran', given.map (vs ++ ·), t', .binds hty hv hpass hattempted hinners, ?_⟩
          rw [Run.exec_bind_of_some hbindings, Run.exec_bind_pure _ hexec']
      · rw [if_neg hpass] at hbindings
        exact ⟨[], none, s, .turnedAway hty hv hpass, Run.exec_bind_of_none hbindings⟩

theorem InnersAttempted.prefix_all (h : InnersAttempted r types own j inners s ran given t) :
    ran <+: inners.reduceOption.flatMap handles := by
  induction h with
  | nil => simp
  | absent _ ih => simpa using ih
  | turnedAway => simp
  | fails _ _ _ hattempted =>
    simpa using hattempted.prefix_all.trans (List.prefix_append _ _)
  | binds _ _ _ hattempted _ ih =>
    rw [hattempted.eq_all rfl]
    simpa using ih

theorem InnersAttempted.eq_all (h : InnersAttempted r types own j inners s ran given t) (hgiven : given.isSome) :
    ran = inners.reduceOption.flatMap handles := by
  induction h with
  | nil => simp
  | absent _ ih => simpa using ih hgiven
  | turnedAway | fails => simp at hgiven
  | binds _ _ _ hattempted _ ih =>
    rw [hattempted.eq_all rfl, ih (by simpa using hgiven)]
    simp

theorem InnersAttempted.counts (h : InnersAttempted r types own j inners s ran given t)
    (hcount : ∀ q, some q ∈ inners → ∀ h ∈ q.handles, h.CountsAs (name h)) : s.Counts (ran.map name) t := by
  induction h with
  | nil | turnedAway => exact .refl _
  | absent _ ih => exact ih fun q hq => hcount q (List.mem_cons_of_mem _ hq)
  | fails _ _ _ hattempted => exact hattempted.counts (hcount _ List.mem_cons_self)
  | binds _ _ _ hattempted _ ih =>
    rw [List.map_append]
    exact (hattempted.counts (hcount _ List.mem_cons_self)).trans
      (ih fun q hq => hcount q (List.mem_cons_of_mem _ hq))

/-! ## All patterns -/

/-- The outer pattern is matched and read, and if nothing fails, the inner ones are. -/
inductive NestedAttempted (r : Registry) (outer : Pattern) (inners : List (Option Pattern)) (target : Value)
    (s : RunState) : List Handle → Option (List Value) → RunState → Prop
  | fails {t : RunState} {ran : List Handle} :
    Attempted r outer target s ran none t → NestedAttempted r outer inners target s ran none t
  | inners {t u : RunState} {own : List Value} {ran rest : List Handle} {given : Option (List Value)} :
    Attempted r outer target s ran (some own) t →
    InnersAttempted r outer.descriptor.bindings own 0 inners t rest given u →
    NestedAttempted r outer inners target s (ran ++ rest) (given.map (own ++ ·)) u

/-- The handles of the outer pattern and then those of the inner ones, in the order in which
they run. -/
def nestedHandles (outer : Pattern) (inners : List (Option Pattern)) : List Handle :=
  outer.handles ++ inners.reduceOption.flatMap handles

/-- All bindings are gathered by such an attempt. -/
theorem exists_nestedAttempted (houter : outer.Paired)
    (h : (adaptInners outer.descriptor.bindings 0 inners).exec st = (.ok present, st')) (r : Registry)
    (target : Value) (s : RunState) :
    ∃ ran given t, NestedAttempted r outer inners target s ran given t ∧
      (gather outer present target).exec r s = (given, t) := by
  obtain ⟨ran, given, t, hattempted, hexec⟩ := exists_attempted r outer target s
  cases given with
  | none => exact ⟨ran, none, t, .fails hattempted, Run.exec_bind_of_none hexec⟩
  | some own =>
    have hown : own.length = outer.descriptor.bindings.length := by rw [length_matchBindings hexec, houter.count]
    obtain ⟨rest, given, u, hinners, hexec'⟩ := exists_innersAttempted h hown r t
    refine ⟨ran ++ rest, given.map (own ++ ·), u, .inners hattempted hinners, ?_⟩
    rw [gather, Run.exec_bind_of_some hexec, Run.exec_bind_pure _ hexec']

/-- What runs is the first part of all handles in order, each of them once. -/
theorem NestedAttempted.prefix_all (h : NestedAttempted r outer inners target s ran given t) :
    ran <+: nestedHandles outer inners := by
  unfold nestedHandles
  cases h with
  | fails hattempted => exact hattempted.prefix_all.trans (List.prefix_append _ _)
  | inners hattempted hinners =>
    rw [hattempted.eq_all rfl]
    exact (List.prefix_append_right_inj _).mpr hinners.prefix_all

theorem NestedAttempted.eq_all (h : NestedAttempted r outer inners target s ran given t) (hgiven : given.isSome) :
    ran = nestedHandles outer inners := by
  unfold nestedHandles
  cases h with
  | fails => simp at hgiven
  | inners hattempted hinners => rw [hattempted.eq_all rfl, hinners.eq_all (by simpa using hgiven)]

theorem NestedAttempted.counts (h : NestedAttempted r outer inners target s ran given t)
    (houter : ∀ h ∈ outer.handles, h.CountsAs (name h))
    (hinners : ∀ q, some q ∈ inners → ∀ h ∈ q.handles, h.CountsAs (name h)) : s.Counts (ran.map name) t := by
  cases h with
  | fails hattempted => exact hattempted.counts houter
  | inners hattempted hrest =>
    rw [List.map_append]
    exact (hattempted.counts houter).trans (hrest.counts hinners)

/-- The handles that a nested pattern runs on an event: those of one attempt when it matches,
and none when a binding is read. -/
def NestedlyRuns (outer : Pattern) (inners : List (Option Pattern)) (e : Event) (ran : List Handle) : Prop :=
  match e.use with
  | .attempt target => ∃ given t, NestedAttempted e.classes outer inners target e.before ran given t
  | .read _ _ => ran = []

/-- A match attempt of a nested pattern counts what runs when all bindings are gathered, and
nothing else. -/
theorem NestedOf.counts_attempt (hn : NestedOf p outer inners present b) (houter : outer.Paired)
    (hcount : ∀ h ∈ outer.handles, h.CountsAs (name h))
    (hcounts : ∀ q, some q ∈ inners → ∀ h ∈ q.handles, h.CountsAs (name h)) (r : Registry) (target : Value)
    (s : RunState) :
    ∃ ran given u, NestedAttempted r outer inners target s ran given u ∧
      s.Counts (ran.map name) ((p.matchCarrier target).exec r s).2 ∧
      (((p.matchCarrier target).exec r s).1.isSome → given.isSome) := by
  obtain ⟨st, st', hadapted⟩ := hn.adapted
  obtain ⟨ran, given, u, hattempted, hexec⟩ := exists_nestedAttempted houter hadapted r target s
  refine ⟨ran, given, u, hattempted, ?_, ?_⟩
  · rw [exec_matchCarrier_snd, hn.attempt target, Run.exec_orNull]
    apply Run.counts_bind
    · rw [hexec]
      exact hattempted.counts hcount hcounts
    · exact hn.bundle.silent
  · intro hsome
    obtain ⟨w, hw⟩ := Option.isSome_iff_exists.mp hsome
    obtain ⟨all, u', hall, -⟩ := hn.bundled (Prod.ext hw rfl)
    obtain ⟨rfl, -⟩ := Prod.mk.inj (hexec.symm.trans hall)
    rfl

/-! ## The law -/

/-- However a nested pattern is used, a match attempt runs the match attempt of the outer
pattern once, then its components in order, and then the inner patterns in order in the same
way; the first one that fails, be it at its guard, is the last one that runs, and when the
target matches, all have run. Reading bindings runs none of them. -/
theorem a_nested_pattern_evaluates_in_order (hst : st.Reachable)
    (h : (nested outer inners).exec st = (.ok p, st')) (houter : outer.Paired)
    (hcount : ∀ h ∈ outer.handles, h.CountsAs (name h))
    (hcounts : ∀ q, some q ∈ inners → ∀ h ∈ q.handles, h.CountsAs (name h)) :
    (∀ s events t, History p [] s events t → ∀ e ∈ events, ∃ ran, NestedlyRuns outer inners e ran ∧
      ran <+: nestedHandles outer inners ∧ e.before.Counts (ran.map name) e.after) ∧
    ∀ r target s w t, (p.matchCarrier target).exec r s = (some w, t) →
      s.Counts ((nestedHandles outer inners).map name) t := by
  obtain ⟨present, b, hn⟩ := nestedOf_of_nested hst h
  have hattempt := hn.counts_attempt houter hcount hcounts
  refine ⟨?_, ?_⟩
  · intro s events t hhistory
    refine hhistory.forall_of_bundled (b := b) ?_ ?_ fun r i w s => ⟨[], rfl, List.nil_prefix, .refl s⟩
    · intro r v s w t hmatch
      obtain ⟨vs, u, -, hw⟩ := hn.bundled hmatch
      exact ⟨vs, r, u, hw⟩
    · intro r target s
      obtain ⟨ran, given, u, hattempted, hcounted, -⟩ := hattempt r target s
      exact ⟨ran, ⟨given, u, hattempted⟩, hattempted.prefix_all, hcounted⟩
  · intro r target s w t hmatch
    obtain ⟨ran, given, u, hattempted, hcounted, hall⟩ := hattempt r target s
    rw [hmatch] at hcounted hall
    rwa [hattempted.eq_all (hall rfl)] at hcounted

/-- Gives the string "x" itself, and matches nothing else. -/
def onlyX : Handle :=
  ⟨.unary .string .string, .unary 2 fun v => Run.ofOption (if v.equals (.str "x") then some v else none)⟩

/-- Binds the string that the handle gives of the target, and counts under two names how often
it is matched and how often it is read. -/
def countedBy (h : Handle) (id : Nat) (matched read : String) : Pattern :=
  ⟨⟨.string, [.string]⟩, ⟨.unary .string .object, .counted id matched h⟩,
    [⟨.unary .object .string, .counted (id + 1) read itself⟩]⟩

theorem paired_countedBy (h : Handle) (id : Nat) (matched read : String) : (countedBy h id matched read).Paired :=
  ⟨.initial, ⟨.string, [.string]⟩, (countedBy h id matched read).tryMatch,
    (countedBy h id matched read).components, rfl⟩

/-- The name under which a handle of one of two such patterns counts. -/
def countedName (h : Handle) : String :=
  if h.body.id = 3 then "outer match" else if h.body.id = 4 then "outer read" else
    if h.body.id = 5 then "inner match" else "inner read"

/-- The law on a pattern inside another one that matches "x" alone: of the string "y" nothing
but the outer match attempt runs, and when "x" matches, all four handles have run. -/
theorem a_pattern_inside_one_for_x_waits_for_it :
    ∃ p st, (nested (countedBy onlyX 3 "outer match" "outer read")
        [some (countedBy itself 5 "inner match" "inner read")]).exec (.initial []) = (.ok p, st) ∧
      (∀ s found t, (p.matchCarrier (.str "y")).exec .initial s = (found, t) → s.Counts ["outer match"] t) ∧
      ∀ s w t, (p.matchCarrier (.str "x")).exec .initial s = (some w, t) →
        s.Counts ["outer match", "outer read", "inner match", "inner read"] t := by
  obtain ⟨b, u, hb⟩ := Bundle.two_strings_ok (Store.reachable_initial []) rfl
  obtain ⟨p, st, hp⟩ : ∃ p st, (nested (countedBy onlyX 3 "outer match" "outer read")
      [some (countedBy itself 5 "inner match" "inner read")]).exec (.initial []) = (.ok p, st) :=
    nested_ok (Store.reachable_initial []) (Nat.le_refl 1) rfl (by decide) hb
  have hitself : ∀ args, (itself.invoke args).Silent := Body.silent_unary 1 Run.silent_pure
  have honlyX : ∀ args, (onlyX.invoke args).Silent := Body.silent_unary 2 fun v => Run.silent_ofOption _
  have houter : ∀ h ∈ (countedBy onlyX 3 "outer match" "outer read").handles, h.CountsAs (countedName h) := by
    intro h hh
    rcases List.mem_pair.mp hh with rfl | rfl
    · exact Handle.countsAs_counted _ _ _ honlyX
    · exact Handle.countsAs_counted _ _ _ hitself
  have hinner : ∀ q, some q ∈ [some (countedBy itself 5 "inner match" "inner read")] → ∀ h ∈ q.handles,
      h.CountsAs (countedName h) := by
    intro q hq h hh
    cases Option.some.inj (List.mem_singleton.mp hq)
    rcases List.mem_pair.mp hh with rfl | rfl
    · exact Handle.countsAs_counted _ _ _ hitself
    · exact Handle.countsAs_counted _ _ _ hitself
  obtain ⟨hused, hmatched⟩ := a_nested_pattern_evaluates_in_order (Store.reachable_initial []) hp
    (paired_countedBy onlyX 3 "outer match" "outer read") houter hinner
  refine ⟨p, st, hp, ?_, ?_⟩
  · intro s found t hexec
    obtain ⟨ran, ⟨given, t', hattempted⟩, -, hcounts⟩ :=
      hused _ _ _ (.attempt hexec .done) _ List.mem_cons_self
    cases hattempted with
    | fails hattempted =>
      cases hattempted with
      | fails => exact hcounts
      | reads hmatch => cases hmatch
    | inners hattempted =>
      cases hattempted with
      | reads hmatch => cases hmatch
  · intro s w t hexec
    exact hmatched _ _ _ _ _ hexec

end PatternDispatch.Pattern

-- The law of dropped bindings. What is not dropped keeps its order and is read as
-- before, so dropping twice is dropping once.
import PatternDispatch.Proofs.Pattern.Refusals

namespace PatternDispatch.Pattern

variable {p q : Pattern} {positions again once places : List Nat} {total i : Nat} {st : Store}

/-! ## The places that are left -/

/-- The places below `total` that are not dropped, in order. -/
def keptPlaces (total : Nat) (positions : List Nat) : List Nat := (List.range total).filter (· ∉ positions)

theorem mem_keptPlaces : i ∈ keptPlaces total positions ↔ i < total ∧ i ∉ positions := by
  simp [keptPlaces]

theorem pairwise_keptPlaces (total : Nat) (positions : List Nat) :
    (keptPlaces total positions).Pairwise (· < ·) := List.pairwise_lt_range.filter _

@[simp] theorem keptPlaces_nil (total : Nat) : keptPlaces total [] = List.range total := by
  simp [keptPlaces]

/-- In a list without repeats a place is dropped just when what stands at it is. -/
theorem filterMap_keptPlaces {xs : List Nat} (hxs : xs.Nodup) (again : List Nat) :
    (keptPlaces xs.length again).filterMap (xs[·]?) = xs.filter (· ∉ again.filterMap (xs[·]?)) := by
  have hsame : ∀ j (hj : j < xs.length), xs[j] ∈ again.filterMap (xs[·]?) ↔ j ∈ again := by
    intro j hj
    rw [List.mem_filterMap]
    refine ⟨?_, ?_⟩
    · rintro ⟨k, hk, heq⟩
      obtain ⟨hk', heq⟩ := List.getElem?_eq_some_iff.mp heq
      rwa [← hxs.getElem_inj_iff.mp heq]
    · intro hagain
      exact ⟨j, hagain, List.getElem?_eq_getElem hj⟩
  calc (keptPlaces xs.length again).filterMap (xs[·]?)
    _ = (List.range xs.length).filterMap fun j => if j ∉ again then xs[j]? else none := by
      simp [keptPlaces, List.filterMap_filter]
    _ = (List.range xs.length).filterMap fun j => xs[j]?.filter (· ∉ again.filterMap (xs[·]?)) := by
      apply List.filterMap_congr
      intro j hj
      have hj : j < xs.length := List.mem_range.mp hj
      rw [List.getElem?_eq_getElem hj]
      simp only [Option.filter, hsame j hj, decide_eq_true_eq]
    _ = xs.filter (· ∉ again.filterMap (xs[·]?)) := by
      rw [← List.filter_filterMap, filterMap_getElem?_range]

/-- Dropping places and then some of those that are left is dropping them all. -/
theorem keptPlaces_keptPlaces
    (h : ∀ i, i ∈ once ↔ i ∈ positions ∨ ∃ j ∈ again, (keptPlaces total positions)[j]? = some i) :
    (keptPlaces (keptPlaces total positions).length again).filterMap ((keptPlaces total positions)[·]?) =
      keptPlaces total once := by
  rw [filterMap_keptPlaces (pairwise_keptPlaces total positions).nodup]
  have hboth : ∀ i, i ∉ once ↔ i ∉ again.filterMap ((keptPlaces total positions)[·]?) ∧ i ∉ positions := by
    intro i
    rw [h, List.mem_filterMap, not_or, and_comm]
  unfold keptPlaces at hboth ⊢
  simp only [List.filter_filter, hboth, Bool.decide_and]

/-! ## The pattern that is left -/

/-- The pattern with the bindings at the places alone. -/
def only (p : Pattern) (places : List Nat) : Pattern :=
  ⟨⟨p.descriptor.target, places.filterMap (p.descriptor.bindings[·]?)⟩, p.tryMatch,
    places.filterMap (p.components[·]?)⟩

theorem only_range (hp : p.WellFormed) : p.only (List.range p.descriptor.bindings.length) = p := by
  unfold only
  rw [filterMap_getElem?_range, ← hp.count, filterMap_getElem?_range]

/-- Some of the places, and then some of those. -/
theorem only_only (hp : p.WellFormed) (h : ∀ i ∈ places, i < p.descriptor.bindings.length) (again : List Nat) :
    (p.only places).only again = p.only (again.filterMap (places[·]?)) := by
  unfold only
  simp only [List.filterMap_filterMap, getElem?_filterMap_places h, getElem?_filterMap_places (hp.count ▸ h)]

theorem WellFormed.only (hp : p.WellFormed) (places : List Nat) : (p.only places).WellFormed :=
  ⟨hp.carrier, (hp.fits places).tryMatch_eq, (hp.fits places).components_eq⟩

/-- Pairing changes nothing on handles that were paired. -/
theorem WellFormed.pair_eq (hp : p.WellFormed) (r : Registry) :
    pair r p.descriptor p.tryMatch p.components = .ok p := by
  have herased : erased p.carrierType = p.carrierType := by
    rcases hp.carrier with hscalar | hobject
    · cases h : p.carrierType <;> simp_all [erased, Ty.isScalar]
    · rw [hobject]
      rfl
  have hreader : ∀ e ∈ p.components, e.sig.withParam 0 p.carrierType = e.sig := by
    intro e he
    have hmem := List.mem_map_of_mem (f := (·.sig)) he
    rw [hp.components_eq] at hmem
    obtain ⟨t, -, hsig⟩ := List.mem_map.mp hmem
    rw [← hsig]
    rfl
  rw [pair_of_fits ⟨hp.tryMatch_eq, hp.components_eq⟩]
  show Except.ok (Pattern.mk p.descriptor { p.tryMatch with sig := p.tryMatch.sig.withRet (erased p.carrierType) }
    (p.components.map fun e => { e with sig := e.sig.withParam 0 (erased p.carrierType) })) = .ok p
  rw [herased, List.map_congr_left fun e he => by rw [hreader e he], List.map_id']
  rfl

/-- The places of the bindings that are left when those at the positions are dropped. -/
def kept (p : Pattern) (positions : List Nat) : List Nat := keptPlaces p.descriptor.bindings.length positions

theorem exec_drop (hp : p.WellFormed) (h : ∀ i ∈ positions, i < p.descriptor.bindings.length) (st : Store) :
    (drop p positions).exec st = (.ok (p.only (p.kept positions)), st) := by
  have hnone : positions.find? (p.descriptor.bindings.length ≤ ·) = none := by simpa using h
  unfold drop
  simp only [hnone, make]
  rw [Build.exec_bind, Build.exec_registry]
  simp only [Build.exec_ofExcept]
  exact congrArg (·, st) ((hp.only _).pair_eq st.registry)

/-- The second pattern matches as the first one does, and has its bindings at the places
alone. Each is read as before, out of any carrier. -/
structure Thinned (p q : Pattern) (places : List Nat) : Prop where
  matchCarrier_eq : q.matchCarrier = p.matchCarrier
  target_eq : q.descriptor.target = p.descriptor.target
  bindings_eq : q.descriptor.bindings.map some = places.map (p.descriptor.bindings[·]?)
  count : q.components.length = places.length
  reads : ∀ (k i : Nat), places[k]? = some i → ∃ h h', q.components[k]? = some h ∧
    p.components[i]? = some h' ∧ ∀ w, h.invoke [w] = h'.invoke [w]

theorem thinned_only (hp : p.WellFormed) (h : ∀ i ∈ places, i < p.descriptor.bindings.length) :
    Thinned p (p.only places) places := by
  have hcomponents : ∀ i ∈ places, i < p.components.length := hp.count ▸ h
  have hbindings : (p.only places).descriptor.bindings.map some = places.map (p.descriptor.bindings[·]?) := by
    apply List.ext_getElem?
    intro k
    rw [Pattern.only, List.getElem?_map, List.getElem?_map, getElem?_filterMap_places h]
    cases hi : places[k]? with
    | none => rfl
    | some i => simp [h i (List.mem_of_getElem? hi)]
  refine ⟨rfl, rfl, hbindings, ?_, ?_⟩
  · rw [(hp.only places).count]
    simpa using congrArg List.length hbindings
  · intro k i hi
    have hlt := hcomponents i (List.mem_of_getElem? hi)
    have hread : (p.only places).components[k]? = p.components[i]? := by
      rw [Pattern.only, getElem?_filterMap_places hcomponents, hi, Option.bind_some]
    exact ⟨_, _, hread.trans (List.getElem?_eq_getElem hlt), List.getElem?_eq_getElem hlt, fun w => rfl⟩

/-! ## The law -/

/-- Bindings are dropped unless a position is past the last one; then the first such
position is named. Whatever was dropped, the pattern matches as before, and the bindings
that are left keep their order and are read as before. Dropping some of those again is
dropping them all at once, and dropping none changes nothing. -/
theorem dropping_twice_is_dropping_once (hp : p.Paired) (positions : List Nat) :
    (∀ st e, (drop p positions).Fails st e ↔ ∃ before index after, positions = before ++ index :: after ∧
      (∀ i ∈ before, i < p.descriptor.bindings.length) ∧ p.descriptor.bindings.length ≤ index ∧
        e = .componentOutOfBounds index p.descriptor.bindings.length) ∧
    (p.kept positions).Pairwise (· < ·) ∧
    (∀ i, i ∈ p.kept positions ↔ i < p.descriptor.bindings.length ∧ i ∉ positions) ∧
    ((∀ i ∈ positions, i < p.descriptor.bindings.length) → ∃ q,
      (∀ st, (drop p positions).exec st = (.ok q, st)) ∧ Thinned p q (p.kept positions) ∧
      (∀ st, (drop q []).exec st = (.ok q, st)) ∧
      ∀ again once, (∀ j ∈ again, j < (p.kept positions).length) →
        (∀ i, i ∈ once ↔ i ∈ positions ∨ ∃ j ∈ again, (p.kept positions)[j]? = some i) →
        ∃ q', ∀ st, (drop q again).exec st = (.ok q', st) ∧ (drop p once).exec st = (.ok q', st)) := by
  have hp := hp.wellFormed
  have hkept : ∀ i ∈ p.kept positions, i < p.descriptor.bindings.length := fun i hi => (mem_keptPlaces.mp hi).1
  refine ⟨?_, pairwise_keptPlaces _ _, fun i => mem_keptPlaces, ?_⟩
  · intro st e
    rw [drop_fails_iff hp]
    simp only [List.find?_eq_some_iff_append, decide_eq_true_eq, Bool.not_eq_true', decide_eq_false_iff_not,
      Nat.not_le]
    refine ⟨?_, ?_⟩
    · rintro ⟨index, ⟨hpast, before, after, hsplit, hbefore⟩, he⟩
      exact ⟨before, index, after, hsplit, hbefore, hpast, he⟩
    · rintro ⟨before, index, after, hsplit, hbefore, hpast, he⟩
      exact ⟨index, ⟨hpast, before, after, hsplit, hbefore⟩, he⟩
  · intro hin
    have hq := hp.only (p.kept positions)
    have hthin := thinned_only hp hkept
    have hlength : (p.only (p.kept positions)).descriptor.bindings.length = (p.kept positions).length := by
      rw [← hq.count, hthin.count]
    have hagain : ∀ again, (p.only (p.kept positions)).kept again = keptPlaces (p.kept positions).length again :=
      fun again => congrArg (keptPlaces · again) hlength
    refine ⟨p.only (p.kept positions), exec_drop hp hin, hthin, ?_, ?_⟩
    · intro st
      rw [exec_drop hq (by simp), hagain, keptPlaces_nil, ← hlength, only_range hq]
    · intro again once hleft honce
      have honce' : ∀ i ∈ once, i < p.descriptor.bindings.length := by
        intro i hi
        rcases (honce i).mp hi with hi | ⟨j, -, hj⟩
        · exact hin i hi
        · exact hkept i (List.mem_of_getElem? hj)
      refine ⟨p.only (p.kept once), fun st => ⟨?_, exec_drop hp honce' st⟩⟩
      rw [exec_drop hq (hlength ▸ hleft), only_only hp hkept, hagain, kept, keptPlaces_keptPlaces honce, kept]

/-- The law on three bindings: the one in the middle is dropped and then the first one,
or both at once. -/
theorem two_of_three_bindings_are_dropped :
    ∃ p st q q', (ofLazyProjection .string [⟨.unary .string .string, .identity 1⟩,
        ⟨.unary .string .object, .identity 2⟩, ⟨.unary .string .carrier, .identity 3⟩]).exec (.initial []) =
          (.ok p, st) ∧
      (drop p [1, 1]).exec st = (.ok q, st) ∧ Thinned p q [0, 2] ∧ (drop q [0]).exec st = (.ok q', st) ∧
      (drop p [1, 0, 1]).exec st = (.ok q', st) ∧ (drop p [0, 7, 3]).Fails st (.componentOutOfBounds 7 3) := by
  obtain ⟨p, st, hp, hbindings⟩ : ∃ p st, (ofLazyProjection .string [⟨.unary .string .string, .identity 1⟩,
      ⟨.unary .string .object, .identity 2⟩, ⟨.unary .string .carrier, .identity 3⟩]).exec (.initial []) =
        (.ok p, st) ∧ p.descriptor.bindings = [.string, .object, .carrier] := ⟨_, _, rfl, rfl⟩
  have hpaired := (builds_ofLazyProjection _ _).paired _ _ _ hp
  have hleft : p.kept [1, 1] = [0, 2] := by
    rw [kept, hbindings]
    rfl
  obtain ⟨-, -, -, hdropped⟩ := dropping_twice_is_dropping_once hpaired [1, 1]
  obtain ⟨q, hq, hthin, -, htwice⟩ := hdropped (by simp [hbindings])
  obtain ⟨q', hq'⟩ := htwice [0] [1, 0, 1] (by simp [hleft]) (by simp [hleft]; omega)
  obtain ⟨hfails, -⟩ := dropping_twice_is_dropping_once hpaired [0, 7, 3]
  refine ⟨p, st, q, q', hp, hq st, hleft ▸ hthin, (hq' st).1, (hq' st).2, ?_⟩
  exact (hfails st _).mpr ⟨[0], 7, [3], rfl, by simp [hbindings], by simp [hbindings], by rw [hbindings]; rfl⟩

end PatternDispatch.Pattern

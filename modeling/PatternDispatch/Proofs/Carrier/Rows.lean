-- The law of the two kinds of carriers. A row takes any values, as many as the
-- shape has parts; a class of its own takes scalars in stored form only. What
-- either takes, it gives back.
import PatternDispatch.Proofs.Reachable

namespace PatternDispatch.CanonicalCarrier

variable {s : Shape} {c : CanonicalCarrier}

/-- The accessors give back the arguments, each the one at its place. -/
def GivesBack (c : CanonicalCarrier) (args : List Value) (w : Value) : Prop :=
  List.Forall₂ (fun (a : Handle) v => ∀ r run, ((a.invoke [w]).exec r run).1 = some v) c.accessors args

theorem Serves.givesBack (hc : c.Serves s) (h : s.Counts) {args : List Value} {w : Value} {r : Registry}
    {run : RunState} (hw : ((c.constructor.invoke args).exec r run).1 = some w) : c.GivesBack args w := by
  have hadmits := (hc.takes h args r run).mp (by rw [hw]; rfl)
  apply forall₂_of_getElem?
  · rw [hc.count, Shape.toNat_componentCount h, hadmits.1]
  · intro i a v ha hv r' run'
    rw [hc.reads_back h hw ha, hv]

/-- Of two requests, one under a limit that gives carriers of the shape a class of
their own and one that does not, the first one's constructor takes as many arguments
as the shape has parts, scalars in stored form, and the second one's takes as many
arguments of any kind. What either takes, its accessors give back. -/
theorem a_row_takes_whatever_a_class_takes {st t : Store} (hst : st.Reachable) (ht : t.Reachable)
    (hown : st.specializes s) (hrow : ¬ t.specializes s) (hslots : s.slots ≤ 254) (hname : st.FreeFor s) :
    ∃ c d, ((ofShape s).exec st).1 = .ok c ∧ ((ofShape s).exec t).1 = .ok d ∧
      c.cls.isSome ∧ d.cls = none ∧
      ∀ (args : List Value) (r : Registry) (run : RunState),
        (((c.constructor.invoke args).exec r run).1.isSome ↔
          args.length = s.componentCount.toNat ∧
            ∀ (i : Nat) v, args[i]? = some v → (s.regionAt i.toUInt64).Holds v) ∧
        (((d.constructor.invoke args).exec r run).1.isSome ↔ args.length = s.componentCount.toNat) ∧
        (∀ w, ((c.constructor.invoke args).exec r run).1 = some w → c.GivesBack args w) ∧
        (∀ w, ((d.constructor.invoke args).exec r run).1 = some w → d.GivesBack args w) := by
  have hmax := not_maxSlots_lt hslots
  have hcounts := Shape.counts_of_slots (s := s) (by omega)
  obtain ⟨c, u, hc⟩ := ofShape_ok hmax fun _ => hname
  obtain ⟨d, v, hd⟩ := ofShape_ok hmax fun h => absurd h hrow
  obtain ⟨hcserves, hccls, -⟩ := (ofShape_sound hst.sound).2 c u hc
  obtain ⟨hdserves, hdcls, -⟩ := (ofShape_sound ht.sound).2 d v hd
  rw [hown] at hccls
  rw [Bool.eq_false_iff.mpr hrow] at hdcls
  refine ⟨c, d, by rw [hc], by rw [hd], hccls, by simpa using hdcls, ?_⟩
  intro args r run
  refine ⟨?_, ?_, ?_, ?_⟩
  · rw [hcserves.takes hcounts, Shape.toNat_componentCount hcounts, hccls, Admits]
    simp
  · rw [hdserves.takes hcounts, Shape.toNat_componentCount hcounts, hdcls, Admits]
    simp
  · exact fun w => hcserves.givesBack hcounts
  · exact fun w => hdserves.givesBack hcounts

/-- The law on one narrow part, under the standard limit and under none. -/
theorem one_narrow_part_in_a_class_and_in_a_row :
    ∃ c d, ((ofShape ⟨0, 1, 0⟩).exec (.initial [])).1 = .ok c ∧
      ((ofShape ⟨0, 1, 0⟩).exec (.initial [("MRT_SPECIALIZE_LIMIT", "0")])).1 = .ok d ∧
      c.cls.isSome ∧ d.cls = none ∧
      ∀ (args : List Value) (r : Registry) (run : RunState),
        (((c.constructor.invoke args).exec r run).1.isSome ↔
          args.length = 1 ∧
            ∀ (i : Nat) v, args[i]? = some v → ((Shape.mk 0 1 0).regionAt i.toUInt64).Holds v) ∧
        (((d.constructor.invoke args).exec r run).1.isSome ↔ args.length = 1) ∧
        (∀ w, ((c.constructor.invoke args).exec r run).1 = some w → c.GivesBack args w) ∧
        (∀ w, ((d.constructor.invoke args).exec r run).1 = some w → d.GivesBack args w) := by
  have hfree : (Store.initial []).FreeFor ⟨0, 1, 0⟩ := Store.freeFor_of_lookup_none (by decide) rfl
  exact a_row_takes_whatever_a_class_takes (Store.reachable_initial []) (Store.reachable_initial _)
    rfl (by decide) (by decide) hfree

/-- The row takes a long where the class asks for an int. -/
theorem one_long_goes_in_a_row_only :
    ∃ c d, ((ofShape ⟨0, 1, 0⟩).exec (.initial [])).1 = .ok c ∧
      ((ofShape ⟨0, 1, 0⟩).exec (.initial [("MRT_SPECIALIZE_LIMIT", "0")])).1 = .ok d ∧
      ((c.constructor.invoke [.long 1]).exec .initial .initial).1 = none ∧
      ((d.constructor.invoke [.long 1]).exec .initial .initial).1.isSome :=
  ⟨_, _, rfl, rfl, rfl, rfl⟩

end PatternDispatch.CanonicalCarrier

-- The law of carriers: what goes in comes back. Constructor and accessors may
-- come from different requests, made in any order, with any others in between.
import PatternDispatch.Proofs.Reachable

namespace PatternDispatch

namespace TypedCarrier

variable {s t : Store} {ts : List Ty}

/-- Whatever was requested before, requests under one limit store the parts alike. -/
theorem specializes_eq (h : s.inForce.specializeLimit = t.inForce.specializeLimit) (shape : Shape) :
    s.specializes shape = t.specializes shape := by
  unfold Store.specializes
  rw [h]

/-! ## The law -/

/-- Of requests made at any two times under one limit, the first one's constructor
takes a value for each type, a scalar of exactly that kind where the type is one,
and nothing else; and the second one's accessors, and the accessors of single
parts, give back exactly what went in, in declared order. -/
theorem every_part_comes_back (hs : s.Reachable) (ht : t.Reachable)
    (hlimit : s.inForce.specializeLimit = t.inForce.specializeLimit)
    (hslots : ts.length + Shape.countIn .wide ts ≤ 254) (hsname : s.FreeFor (.ofTypes ts))
    (htname : t.FreeFor (.ofTypes ts)) :
    ∃ c d, ((ofTypes ts).exec s).1 = .ok c ∧ ((ofTypes ts).exec t).1 = .ok d ∧
      ∀ (values : List Value) (r : Registry) (st : RunState),
        (((c.constructor.invoke values).exec r st).1.isSome ↔ Fits ts values) ∧
        ∀ w, ((c.constructor.invoke values).exec r st).1 = some w →
          d.accessors.length = values.length ∧
          ∀ (i : Nat) v, values[i]? = some v →
            (∃ a, d.accessors[i]? = some a ∧
              ∀ r' st', ((a.invoke [w]).exec r' st').1 = some v) ∧
            (∃ a, ((componentOf ts i).exec t).1 = .ok a ∧
              ∀ r' st', ((a.invoke [w]).exec r' st').1 = some v) := by
  have hlen : ts.length < 2 ^ 64 := by omega
  obtain ⟨c, s', hc⟩ := ofTypes_ok hslots hsname hs.sound
  obtain ⟨d, t', hd⟩ := ofTypes_ok hslots htname ht.sound
  have hcserves := (ofTypes_sound hs.sound).2 c s' hc
  have hdserves := (ofTypes_sound ht.sound).2 d t' hd
  rw [← specializes_eq hlimit] at hdserves
  refine ⟨c, d, by rw [hc], by rw [hd], ?_⟩
  intro values r st
  refine ⟨hcserves.takes hlen values r st, ?_⟩
  intro w hw
  have hfits := (hcserves.takes hlen values r st).mp (by rw [hw]; rfl)
  refine ⟨hdserves.count.trans hfits.length_eq.symm, ?_⟩
  intro i v hv
  have hi : i < ts.length := hfits.length_eq ▸ (List.getElem?_eq_some_iff.mp hv).1
  refine ⟨?_, ?_⟩
  · have ha := List.getElem?_eq_getElem (hdserves.count ▸ hi)
    refine ⟨_, ha, ?_⟩
    intro r' st'
    rw [hcserves.reads_back hlen hw (hdserves.reads hlen i _ ha), hv]
  · obtain ⟨a, t'', ha⟩ := componentOf_ok hslots htname ht.sound hi
    have hreads := (componentOf_sound ht.sound).2 a t'' ha hlen
    rw [← specializes_eq hlimit] at hreads
    refine ⟨a, by rw [ha], ?_⟩
    intro r' st'
    rw [hcserves.reads_back hlen hw hreads, hv]

/-- The law on four types, with the second request after a request for a shorter
carrier. -/
theorem four_parts_come_back :
    ∃ c d, ((ofTypes [.string, .long, .scalar .boolean, .scalar .double]).exec (.initial [])).1 = .ok c ∧
      ((ofTypes [.string, .long, .scalar .boolean, .scalar .double]).exec
        ((ofTypes [.long]).exec (.initial [])).2).1 = .ok d ∧
      ∀ (values : List Value) (r : Registry) (st : RunState),
        (((c.constructor.invoke values).exec r st).1.isSome ↔
          Fits [.string, .long, .scalar .boolean, .scalar .double] values) ∧
        ∀ w, ((c.constructor.invoke values).exec r st).1 = some w →
          d.accessors.length = values.length ∧
          ∀ (i : Nat) v, values[i]? = some v →
            (∃ a, d.accessors[i]? = some a ∧
              ∀ r' st', ((a.invoke [w]).exec r' st').1 = some v) ∧
            (∃ a, ((componentOf [.string, .long, .scalar .boolean, .scalar .double] i).exec
                ((ofTypes [.long]).exec (.initial [])).2).1 = .ok a ∧
              ∀ r' st', ((a.invoke [w]).exec r' st').1 = some v) := by
  have hs : (Store.initial []).Reachable := Store.reachable_initial []
  have ht : ((ofTypes [.long]).exec (.initial [])).2.Reachable := hs.leads (Store.Step.types _ _).leads
  have hfree : ∀ st : Store, st.registry.size < 2 ^ 32 → st.registry.lookup? "Carrier_o1_i1_l2" = none →
      st.FreeFor (.ofTypes [.string, .long, .scalar .boolean, .scalar .double]) := by
    intro st hsize hnone
    refine ⟨hsize, ?_⟩
    intro c hc
    cases hnone.symm.trans hc
  exact every_part_comes_back hs ht rfl (by decide) (hfree _ (by decide) rfl) (hfree _ (by decide) rfl)

end TypedCarrier

end PatternDispatch

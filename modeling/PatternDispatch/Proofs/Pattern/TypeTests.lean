-- The law of type tests. A test for a class binds the target itself, on whatever target
-- type. The test that null passes too sends null on its way as the null mark, which is an
-- object itself: callers get it as a carrier, and of it the test for objects binds null.
import PatternDispatch.Proofs.Pattern.Adapting
import PatternDispatch.Proofs.Pattern.Builders

namespace PatternDispatch

variable {r : Registry} {c : ClassId} {target : Ty} {v : Value} {s : RunState}

namespace Value

/-! ## Instances -/

/-- The null mark is an object, and of no other class. -/
theorem isInstance_nullMark (hr : r.Ordered) : nullMark.isInstance r c ↔ c = .object := by
  refine ⟨Registry.eq_of_isSubclass_object hr, ?_⟩
  rintro rfl
  exact Registry.isSubclass_refl ..

end Value

/-- The guard of a class lets null and the instances of the class through. -/
theorem Guard.passes_of_accepts (h : (Ty.ref c).accepts r v) : passes r (.ref c) target v := by
  unfold passes
  cases target <;> simp [Guard.from, admits, h]

namespace Pattern

variable {p q : Pattern} {st st' : Store} {test : Registry → Value → Bool} {bound : Value → Value}

/-! ## What a test binds -/

/-- The pattern on the class binds one value of each target that passes the test, and
leaves the run as it is. -/
structure Tests (p : Pattern) (c : ClassId) (test : Registry → Value → Bool) (bound : Value → Value) : Prop where
  descriptor_eq : p.descriptor = ⟨.ref c, [.ref c]⟩
  exec_matchBindings : ∀ r s v, (p.matchBindings v).exec r s = (if test r v then some [bound v] else none, s)

/-- The target goes through a disguise that is not null to the only component, which takes
it off. -/
theorem MadeOf.tests {tryMatch component : Handle} {disguise reveal : Value → Value}
    (hof : p.MadeOf ⟨.ref c, [.ref c]⟩ tryMatch [component])
    (htry : ∀ v, tryMatch.invoke [v] = do if test (← Run.registry) v then return disguise v else return .null)
    (hcomponent : ∀ w, component.invoke [w] = pure (reveal w))
    (hne : ∀ r v, test r v → disguise v ≠ .null) : p.Tests c test fun v => reveal (disguise v) := by
  refine ⟨hof.descriptor_eq, ?_⟩
  intro r s v
  have hattempt : (p.tryMatch.invoke [v]).exec r s = (some (if test r v then disguise v else .null), s) := by
    rw [hof.attempt_eq, htry, Run.exec_bind_of_some (Run.exec_registry r s)]
    split <;> rfl
  by_cases hpass : test r v
  · rw [if_pos hpass] at hattempt
    rw [if_pos hpass, matchBindings,
      Run.exec_bind_of_some (exec_matchCarrier_iff.mpr ⟨hattempt, hne r v hpass⟩), hof.bindings_eq]
    exact Run.exec_mapM_of_forall₂ (.cons (fun s => by rw [hcomponent, Run.exec_pure]) .nil)
  · rw [if_neg hpass] at hattempt
    have hcarrier : (p.matchCarrier v).exec r s = (none, s) := by
      rw [matchCarrier, Run.exec_bind_of_some hattempt]
      rfl
    rw [if_neg hpass, matchBindings, Run.exec_bind_of_none hcarrier]

theorem tests_ofType (h : (ofType (.ref c)).exec st = (.ok p, st')) :
    p.Tests c (fun r v => v.isInstance r c) id := by
  obtain ⟨tryMatch, u, id, hbody, h⟩ := Build.exec_handle_bind_ok h
  obtain ⟨component, u', id', hbody', h⟩ := Build.exec_handle_bind_ok h
  have hattempt : ∀ v, tryMatch.invoke [v] = do if v.isInstance (← Run.registry) c then return v else return .null := by
    intro v
    rw [Handle.invoke, hbody]
    rfl
  have hcomponent : ∀ w, component.invoke [w] = pure w := by
    intro w
    rw [Handle.invoke, hbody']
    rfl
  apply (make_ok h).2.1.tests hattempt hcomponent
  rintro r v hinstance rfl
  cases hinstance

theorem tests_nullable (h : (nullable (.ref c)).exec st = (.ok p, st')) :
    p.Tests c (fun r v => v.isNull || v.isInstance r c) Value.reveal := by
  obtain ⟨tryMatch, component, hof, hattempt, hcomponent⟩ := nullable_inv h
  have htests := hof.tests hattempt hcomponent fun _ v _ => v.disguise_ne_null
  simpa only [Value.reveal_disguise] using htests

/-- On another target type the same is bound: what the guard turns away fails the test
anyway. -/
theorem Tests.adapts (h : p.Tests c test bound) (hq : p.Adapts target q)
    (htest : ∀ r v, test r v → (Ty.ref c).accepts r v) (r : Registry) (s : RunState) (v : Value) :
    (q.matchBindings v).exec r s = (if test r v then some [bound v] else none, s) := by
  rw [hq.exec_matchBindings, h.descriptor_eq]
  split
  · exact h.exec_matchBindings r s v
  · rename_i hturned
    have hfails : ¬ test r v := fun hpass => hturned (Guard.passes_of_accepts (htest r v hpass))
    rw [if_neg hfails]

theorem exec_ofTypeFor (h : (ofTypeFor (.ref c) target).exec st = (.ok p, st')) (r : Registry) (s : RunState)
    (v : Value) : (p.matchBindings v).exec r s = (if v.isInstance r c then some [v] else none, s) := by
  obtain ⟨q, u, hq, hadapt⟩ := Build.exec_bind_ok h
  apply (tests_ofType hq).adapts ⟨u, st', hadapt⟩
  intro r v hinstance
  rw [Value.accepts_ref, hinstance, Bool.or_true]

theorem exec_nullableFor (h : (nullableFor (.ref c) target).exec st = (.ok p, st')) (r : Registry) (s : RunState)
    (v : Value) :
    (p.matchBindings v).exec r s = (if v.isNull || v.isInstance r c then some [v.reveal] else none, s) := by
  obtain ⟨q, u, hq, hadapt⟩ := Build.exec_bind_ok h
  apply (tests_nullable hq).adapts ⟨u, st', hadapt⟩
  intro r v hpass
  rwa [Value.accepts_ref]

/-! ## The law -/

/-- A type test can be built for the target types that are related to its class. It binds
the target itself if that is an instance of the class, which null never is; if null passes
too, it also binds null. Nothing else matches, and the run stays as it is. But where null
passes a test for objects, the null mark, which is an object, binds null and not itself. -/
theorem a_type_test_binds_its_target_but_for_the_null_mark (c : ClassId) (target : Ty) (st : Store) :
    (∀ e, (ofTypeFor (.ref c) target).Fails st e ↔
      ¬ (Ty.ref c).Related st.registry target ∧ e = unrelated st.registry (.ref c) target) ∧
    (∀ e, (nullableFor (.ref c) target).Fails st e ↔
      ¬ (Ty.ref c).Related st.registry target ∧ e = unrelated st.registry (.ref c) target) ∧
    (∀ p st', (ofTypeFor (.ref c) target).exec st = (.ok p, st') → ∀ r s v,
      (p.matchBindings v).exec r s = (if v.isInstance r c then some [v] else none, s)) ∧
    ∀ p st', (nullableFor (.ref c) target).exec st = (.ok p, st') → ∀ r s v, r.Grown →
      (¬ (v = .nullMark ∧ c = .object) →
        (p.matchBindings v).exec r s = (if v.isNull || v.isInstance r c then some [v] else none, s)) ∧
      (v = .nullMark ∧ c = .object → (p.matchBindings v).exec r s = (some [.null], s)) := by
  refine ⟨?_, ?_, ?_, ?_⟩
  · intro e
    rw [ofTypeFor, adapted_fails_iff (mints_ofType (.ref c)), Guard.between?_eq_none_iff]
  · intro e
    rw [nullableFor, adapted_fails_iff (mints_nullable (.ref c)), Guard.between?_eq_none_iff]
  · intro p st' h r s v
    exact exec_ofTypeFor h r s v
  · intro p st' h r s v hr
    rw [exec_nullableFor h]
    refine ⟨?_, ?_⟩
    · intro hmark
      by_cases hpass : v.isNull || v.isInstance r c
      · rw [if_pos hpass, if_pos hpass]
        have hv : v ≠ .nullMark := by
          rintro rfl
          exact hmark ⟨rfl, (Value.isInstance_nullMark hr.ordered).mp hpass⟩
        rw [Value.reveal_of_ne hv]
      · rw [if_neg hpass, if_neg hpass]
    · rintro ⟨rfl, rfl⟩
      have hobject : Value.nullMark.isInstance r .object := (Value.isInstance_nullMark hr.ordered).mpr rfl
      rw [if_pos (Bool.or_eq_true_iff.mpr (Or.inr hobject))]
      rfl

/-- The law on tests for strings that take objects. -/
theorem tests_for_strings_bind_strings :
    ∃ p st q st', (ofTypeFor .string .object).exec (.initial []) = (.ok p, st) ∧
      (nullableFor .string .object).exec st = (.ok q, st') ∧
      (p.matchBindings (.str "x")).exec .initial .initial = (some [.str "x"], .initial) ∧
      (p.matchBindings .null).exec .initial .initial = (none, .initial) ∧
      (q.matchBindings .null).exec .initial .initial = (some [.null], .initial) ∧
      (q.matchBindings .nullMark).exec .initial .initial = (none, .initial) := by
  obtain ⟨p, st, hp⟩ : ∃ p st, (ofTypeFor .string .object).exec (.initial []) = (.ok p, st) := ⟨_, _, rfl⟩
  obtain ⟨q, st', hq⟩ : ∃ q st', (nullableFor .string .object).exec st = (.ok q, st') := ⟨_, _, rfl⟩
  obtain ⟨-, -, law, -⟩ := a_type_test_binds_its_target_but_for_the_null_mark .string .object (.initial [])
  obtain ⟨-, -, -, law'⟩ := a_type_test_binds_its_target_but_for_the_null_mark .string .object st
  have hother : ∀ v, ¬ (v = Value.nullMark ∧ ClassId.string = .object) := fun v h => by cases h.2
  have hstring := law p st hp .initial .initial
  have hnullable := fun v => (law' q st' hq .initial .initial v .initial).1 (hother v)
  exact ⟨p, st, q, st', hp, hq, hstring (.str "x"), hstring .null, hnullable .null, hnullable .nullMark⟩

/-- The carrier of a matched null is an object, which the test for objects binds; but where
null passes too, it binds null. -/
theorem a_matched_null_is_an_object_that_binds_null :
    ∃ p st q st', (ofTypeFor .object .object).exec (.initial []) = (.ok p, st) ∧
      (nullableFor .object .object).exec st = (.ok q, st') ∧
      ∃ w, (q.matchCarrier .null).exec .initial .initial = (some w, .initial) ∧
        w ≠ .null ∧ w.isInstance .initial .object ∧
        (p.matchBindings w).exec .initial .initial = (some [w], .initial) ∧
        (q.matchBindings w).exec .initial .initial = (some [.null], .initial) :=
  ⟨_, _, _, _, rfl, rfl, .nullMark, rfl, Value.noConfusion, rfl, rfl, rfl⟩

end Pattern

end PatternDispatch

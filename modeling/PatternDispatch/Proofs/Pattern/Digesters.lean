-- The law of digesters. A target matches with whatever the digester returns once it
-- has bound something; what it returned is looked at no further. The bindings are
-- known just when it returned the answer to values that it had bound.
import PatternDispatch.Proofs.Pattern.Exposed

namespace PatternDispatch

variable {p : Pattern} {b : Bundle} {d : Descriptor} {digester : Digester} {v w : Value} {vs : List Value}
  {binds : List (List Value × Value)} {r : Registry} {s s' : RunState} {st st' u : Store}

/-! ## The answers of a run -/

/-- Binding gives null just when the values do not pass the check of the types. -/
theorem Bundle.Carries.answer_ne_null_iff {ts : List Ty} (hb : b.Carries ts) {t : RunState}
    (hanswer : (Run.orNull (b.construct vs)).exec r s = (some w, t)) : w ≠ .null ↔ Bundle.Checked r ts vs := by
  rw [← hb.takes vs r s]
  refine ⟨?_, ?_⟩
  · intro hne
    rw [Run.exec_of_orNull hanswer hne]
    rfl
  · intro hsome
    obtain ⟨w', hw'⟩ := Option.isSome_iff_exists.mp hsome
    rw [Run.exec_orNull, hw'] at hanswer
    cases hanswer
    exact hb.ne_null vs r s _ hw'

namespace Pattern

/-! ## The law -/

/-- Every run of a digester comes to an end. Its target matches just when it is not null,
the digester bound something and returned something else than null, and the carrier is
what it returned. If that is the answer to values that it bound, then it is null just when
the values do not pass the check of their types, and else the pattern binds the values. -/
theorem a_digester_is_trusted_once_it_has_bound (hst : st.Reachable) (hwords : d.bindings.length < 2 ^ 64)
    (h : (ofDigester d digester).exec st = (.ok p, st')) :
    ∃ b u, (Bundle.ofTypes d.bindings).exec st = (.ok b, u) ∧
      (∀ r v s, ∃ binds w s', Digest.Runs b r (digester r v) s binds w s') ∧
      ∀ r v s binds w s', Digest.Runs b r (digester r v) s binds w s' →
        (∀ c t, (p.matchCarrier v).exec r s = (some c, t) ↔
          v ≠ .null ∧ binds ≠ [] ∧ w ≠ .null ∧ c = w ∧ t = s') ∧
        ∀ vs, v ≠ .null → (vs, w) ∈ binds →
          (w ≠ .null ↔ Bundle.Checked r d.bindings vs) ∧
          (w ≠ .null → (∀ x ∈ vs, x ≠ .nullMark) → (p.matchBindings v).exec r s = (some vs, s')) := by
  obtain ⟨b, u, hb, -⟩ := Build.exec_bind_ok h
  refine ⟨b, u, hb, fun r v s => Digest.exists_runs b r (digester r v) s, ?_⟩
  intro r v s binds w s' hruns
  have hmatches : ∀ c t, (p.matchCarrier v).exec r s = (some c, t) ↔ _ :=
    fun c t => matchCarrier_ofDigester_iff hst hwords hb h hruns
  refine ⟨hmatches, ?_⟩
  intro vs hv hmem
  obtain ⟨hdescriptor, hunbundles, -⟩ := ofDigester_inv hst hwords hb h
  refine ⟨?_, ?_⟩
  · obtain ⟨t, t', hanswer⟩ := hruns.answer_of_mem hmem
    exact (Bundle.carries_of_ofTypes hst hwords hb).answer_ne_null_iff hanswer
  · intro hne hmarks
    have hcarrier := (hmatches w s').mpr ⟨hv, List.ne_nil_of_mem hmem, hne, rfl, rfl⟩
    obtain ⟨t, hconstruct⟩ := hruns.construct_of_mem hmem hne
    rw [matchBindings, Run.exec_bind_of_some hcarrier, hunbundles.exec_bindings hconstruct,
      Bundle.map_shown hmarks]

/-- The law on a digester that binds its target where an int is declared. -/
theorem a_digester_that_binds_its_target_takes_ints :
    ∃ p st', (ofDigester ⟨.object, [.int]⟩ (.binding [.target])).exec (.initial []) = (.ok p, st') ∧
      ((p.matchBindings (.int 7)).exec .initial .initial).1 = some [.int 7] ∧
      ((p.matchCarrier (.str "x")).exec .initial .initial).1 = none := by
  obtain ⟨p, st', hp⟩ : ∃ p st', (ofDigester ⟨.object, [.int]⟩ (.binding [.target])).exec (.initial []) =
      (.ok p, st') := ⟨_, _, rfl⟩
  obtain ⟨b, u, -, hexists, law⟩ :=
    a_digester_is_trusted_once_it_has_bound (Store.reachable_initial []) (by decide) hp
  -- Whatever the target is, it is bound once, and the answer is returned.
  have hone : ∀ v : Value, ∃ w s', Digest.Runs b .initial (.bound [v]) .initial [([v], w)] w s' := by
    intro v
    obtain ⟨binds, w, s', hruns⟩ := hexists .initial v .initial
    cases hruns with
    | bind hanswer hrest =>
      cases hrest
      exact ⟨w, s', .bind hanswer .done⟩
  refine ⟨p, st', hp, ?_, ?_⟩
  · obtain ⟨w, s', hruns⟩ := hone (.int 7)
    obtain ⟨-, hbinds⟩ := law _ (.int 7) _ _ _ _ hruns
    obtain ⟨hnull, hbinds⟩ := hbinds [.int 7] Value.noConfusion List.mem_cons_self
    rw [hbinds (hnull.mpr ((Bundle.checked_one _ _).mpr rfl)) (by simp [Value.nullMark])]
  · obtain ⟨w, s', hruns⟩ := hone (.str "x")
    obtain ⟨hmatches, hbinds⟩ := law _ (.str "x") _ _ _ _ hruns
    obtain ⟨hnull, -⟩ := hbinds [.str "x"] Value.noConfusion List.mem_cons_self
    by_contra hmatch
    obtain ⟨c, hc⟩ := Option.ne_none_iff_exists'.mp hmatch
    obtain ⟨-, -, hne, -⟩ := (hmatches c _).mp (Prod.ext hc rfl)
    cases (Bundle.checked_one _ _).mp (hnull.mp hne)

/-- A digester binds a string where an int is declared, gets null for it and returns
the string itself: the target matches, and binds a string for an int. -/
theorem a_string_that_was_refused_is_bound_for_an_int :
    ∃ b u p st', (Bundle.ofTypes [.int]).exec (.initial []) = (.ok b, u) ∧
      (ofDigester ⟨.object, [.int]⟩ (.bindingThen [.value (.str "seven")] (.str "seven"))).exec (.initial []) =
        (.ok p, st') ∧
      Digest.Runs b .initial (Digester.bindingThen [.value (.str "seven")] (.str "seven") .initial (.int 7)) .initial
        [([.str "seven"], .null)] (.str "seven") .initial ∧
      ((p.matchBindings (.int 7)).exec .initial .initial).1 = some [.str "seven"] :=
  ⟨_, _, _, _, rfl, rfl, .bind rfl .done, rfl⟩

end Pattern

end PatternDispatch

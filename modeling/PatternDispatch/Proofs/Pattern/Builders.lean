-- Every pattern that a program can build is paired, and building it takes steps:
-- it leads from one store that a program can come to to another.
import PatternDispatch.Pattern.Combine
import PatternDispatch.Pattern.Digest
import PatternDispatch.Pattern.Direct
import PatternDispatch.Pattern.Projection
import PatternDispatch.Proofs.Pattern.Pairing

namespace PatternDispatch.Pattern

/-! ## Patterns that test the target -/

theorem builds_ofType (t : Ty) : Builds (ofType t) := by
  unfold ofType
  have hrest : ∀ tryMatch, Builds (do
      make ⟨t, [t]⟩ tryMatch [← Build.handle (.unary t t) Body.identity]) := by
    intro tryMatch
    exact .after (Build.steps_handle _ _) fun _ => builds_make _ _ _
  cases t with
  | scalar k => exact .after (Build.steps_handle _ _) hrest
  | ref c => exact .after (Build.steps_handle _ _) hrest

theorem builds_ofTypeFor (t target : Ty) : Builds (ofTypeFor t target) :=
  (builds_ofType t).adapted target

theorem builds_nullable (t : Ty) : Builds (nullable t) := by
  unfold nullable
  cases t with
  | scalar k => exact builds_ofType _
  | ref c =>
    apply Builds.after (Build.steps_handle _ _)
    intro tryMatch
    exact .after (Build.steps_handle _ _) fun _ => builds_make _ _ _

/-- The test that null passes too sends the target on in disguise, and its component takes
the disguise off. -/
theorem nullable_inv {c : ClassId} {p : Pattern} {st st' : Store}
    (h : (nullable (.ref c)).exec st = (.ok p, st')) :
    ∃ tryMatch component, p.MadeOf ⟨.ref c, [.ref c]⟩ tryMatch [component] ∧
      (∀ v, tryMatch.invoke [v] = do
        if v.isNull || v.isInstance (← Run.registry) c then return v.disguise else return .null) ∧
      ∀ w, component.invoke [w] = pure w.reveal := by
  obtain ⟨tryMatch, u, id, hbody, h⟩ := Build.exec_handle_bind_ok h
  obtain ⟨component, u', id', hbody', h⟩ := Build.exec_handle_bind_ok h
  refine ⟨tryMatch, component, (make_ok h).2.1, ?_, ?_⟩
  · intro v
    rw [Handle.invoke, hbody]
    rfl
  · intro w
    rw [Handle.invoke, hbody']
    rfl

theorem builds_nullableFor (t target : Ty) : Builds (nullableFor t target) :=
  (builds_nullable t).adapted target

theorem builds_ofConstant (c : Value) : Builds (ofConstant c) :=
  .after (Build.steps_handle _ _) fun _ => builds_make _ _ _

theorem builds_ofConstantFor (c : Value) (target : Ty) : Builds (ofConstantFor c target) :=
  (builds_ofConstant c).adapted target

/-! ## Patterns that take the target apart -/

theorem builds_ofLazyProjection (target : Ty) (extractors : List Handle) :
    Builds (ofLazyProjection target extractors) := by
  apply Builds.after Build.steps_registry
  intro r
  apply Builds.after (Build.steps_ofExcept _)
  intro d
  exact .after (Build.steps_handle _ _) fun _ => builds_make _ _ _

theorem builds_ofEagerProjection (target : Ty) (extractors : List Handle) :
    Builds (ofEagerProjection target extractors) := by
  apply Builds.after Build.steps_registry
  intro r
  apply Builds.after (Build.steps_ofExcept _)
  intro d
  apply Builds.after (Bundle.steps_ofTypes _)
  intro bundle
  exact .after (Build.steps_handle _ _) fun _ => builds_make _ _ _

theorem builds_ofRecord (c : ClassId) : Builds (ofRecord c) := by
  apply Builds.after Build.steps_registry
  intro r
  simp only
  cases (r.info c).components? with
  | none => exact builds_throw _
  | some components =>
    apply Builds.after
    · exact Build.steps_mapM (fun _ => Build.steps_handle _ _) _
    · intro extractors
      exact builds_ofEagerProjection _ _

theorem builds_ofDigester (d : Descriptor) (digester : Digester) : Builds (ofDigester d digester) := by
  apply Builds.after (Bundle.steps_ofTypes _)
  intro bundle
  exact .after (Build.steps_handle _ _) fun _ => builds_make _ _ _

/-! ## Patterns with fewer bindings -/

theorem builds_drop (p : Pattern) (positions : List Nat) : Builds (drop p positions) := by
  unfold drop
  simp only
  cases positions.find? (p.descriptor.bindings.length ≤ ·) with
  | none => exact builds_make _ _ _
  | some index => exact builds_throw _

end PatternDispatch.Pattern

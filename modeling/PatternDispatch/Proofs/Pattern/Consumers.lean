-- The law of consumers. The default stands for a target without a carrier; when a
-- binding cannot be read out of the carrier, there is no match at all. So consuming
-- agrees with binding just where every carrier holds all bindings.
import PatternDispatch.Proofs.Pattern.Adapting
import PatternDispatch.Proofs.Pattern.Closure

namespace PatternDispatch.Pattern

variable {p q outer : Pattern} {b : Bundle} {consumer : Handle} {default v w : Value} {vs : List Value} {r : Registry}
  {s t : RunState} {st st' : Store} {target : Ty}

/-! ## Carriers that hold all bindings -/

/-- All components give something of the carrier of a match, whenever they are read. -/
def Readable (p : Pattern) : Prop :=
  ∀ v r s w t, (p.matchCarrier v).exec r s = (some w, t) →
    ∀ body ∈ p.components.map (·.body), ∀ r' s', ((body.run [w]).exec r' s').1.isSome

theorem Readable.exec_bindings (hp : p.Readable) (hmatch : (p.matchCarrier v).exec r s = (some w, t)) :
    ∃ vs u, (p.bindings w).exec r t = (some vs, u) := by
  apply Run.exec_mapM_ok
  intro e he u
  exact Option.isSome_iff_exists.mp (hp v r s w t hmatch e.body (List.mem_map_of_mem he) r u)

/-- Components that give something of any carrier give it of those of matches. -/
theorem MadeOf.readable {d : Descriptor} {tryMatch : Handle} {components : List Handle}
    (hof : p.MadeOf d tryMatch components) (h : ∀ e ∈ components, ∀ w, ∃ x, e.body.run [w] = pure x) :
    p.Readable := by
  intro v r s w t _ body hbody r' s'
  rw [hof.components_eq] at hbody
  obtain ⟨e, he, rfl⟩ := List.mem_map.mp hbody
  obtain ⟨x, hx⟩ := h e he w
  rw [hx]
  rfl

theorem readable_ofType {ty : Ty} (h : (ofType ty).exec st = (.ok p, st')) : p.Readable := by
  obtain ⟨tryMatch, component, id, hof, -, hbody⟩ := ofType_inv h
  apply hof.readable
  intro e he w
  cases List.mem_singleton.mp he
  exact ⟨w, by rw [hbody]; rfl⟩

theorem readable_nullable {ty : Ty} (h : (nullable ty).exec st = (.ok p, st')) : p.Readable := by
  unfold nullable at h
  cases ty with
  | scalar k => exact readable_ofType h
  | ref c =>
    obtain ⟨tryMatch, component, hof, -, hcomponent⟩ := nullable_inv h
    apply hof.readable
    intro e he w
    cases List.mem_singleton.mp he
    exact ⟨w.reveal, hcomponent w⟩

theorem readable_ofConstant {c : Value} (h : (ofConstant c).exec st = (.ok p, st')) : p.Readable := by
  obtain ⟨tryMatch, u, -, h⟩ := Build.exec_bind_ok h
  apply (make_ok h).2.1.readable
  intro e he
  cases he

/-- Every component shows something of a bundle. -/
theorem Unbundles.isSome_of_construct (hp : p.Unbundles b) (hw : ((b.construct vs).exec r s).1 = some w)
    {body : Body} (hbody : body ∈ p.components.map (·.body)) (r' : Registry) (s' : RunState) :
    ((body.run [w]).exec r' s').1.isSome := by
  obtain ⟨e, he, rfl⟩ := List.mem_map.mp hbody
  obtain ⟨i, hi⟩ := List.mem_iff_getElem?.mp he
  have hchecked := (hp.carries.takes vs r s).mp (by rw [hw]; rfl)
  have hlt : i < vs.length := by
    rw [hchecked.length_eq, ← hp.count]
    exact (List.getElem?_eq_some_iff.mp hi).1
  have hshows := hp.shows hw hi (List.getElem?_eq_getElem hlt) r' s'
  rw [Handle.invoke] at hshows
  rw [hshows]
  rfl

theorem readable_ofEagerProjection {extractors : List Handle} (hst : st.Reachable)
    (h : (ofEagerProjection target extractors).exec st = (.ok p, st')) : p.Readable := by
  obtain ⟨b, u, hb, he⟩ := eagerOf_of_ofEagerProjection h
  intro v r s w t hmatch body hbody
  obtain ⟨vs, u', -, hw, hunbundles⟩ := he.bundled (by rw [he.descriptor_eq]; exact ⟨st, u, hst, hb⟩) hmatch
  exact hunbundles.isSome_of_construct hw hbody

theorem readable_ofRecord {c : ClassId} (hst : st.Reachable) (h : (ofRecord c).exec st = (.ok p, st')) :
    p.Readable := by
  obtain ⟨parts, extractors, u, -, -, hu, h⟩ := ofRecord_inv hst h
  exact readable_ofEagerProjection hu h

/-- Whatever the inner and outer patterns are, the bindings are in the bundle. -/
theorem readable_nested {inners : List (Option Pattern)} (hst : st.Reachable)
    (h : (nested outer inners).exec st = (.ok p, st')) : p.Readable := by
  obtain ⟨present, b, hn⟩ := nestedOf_of_nested hst h
  intro v r s w t hmatch body hbody
  obtain ⟨all, u, -, hw, hunbundles⟩ := hn.bundled hmatch
  exact hunbundles.isSome_of_construct hw hbody

theorem Readable.adapts (hp : p.Readable) (h : p.Adapts target q) : q.Readable := by
  intro v r s w t hmatch
  rw [h.exec_matchCarrier] at hmatch
  rw [h.bodies_eq]
  split at hmatch
  · exact hp v r s w t hmatch
  · cases hmatch

theorem Readable.drop {positions : List Nat} (hp : p.Readable)
    (h : (drop p positions).exec st = (.ok q, st')) : q.Readable := by
  unfold Pattern.drop at h
  simp only at h
  split at h
  · cases h
  · have hof := (make_ok h).2.1
    intro v r s w t hmatch body hbody
    obtain ⟨hattempt, hne⟩ := exec_matchCarrier_iff.mp hmatch
    rw [Handle.invoke, hof.tryMatch_eq] at hattempt
    rw [hof.components_eq] at hbody
    obtain ⟨e, he, rfl⟩ := List.mem_map.mp hbody
    obtain ⟨i, -, hi⟩ := List.mem_filterMap.mp he
    exact hp v r s w t (exec_matchCarrier_iff.mpr ⟨hattempt, hne⟩) _ (List.mem_map_of_mem (List.mem_of_getElem? hi))

/-! ## Patterns that read their bindings at once -/

namespace Request

/-- The bindings come from the match attempt itself, or from the carriers of the
pattern that the request starts from. -/
def Settles : Request → Prop
  | parts _ _ _ => False
  | lazyProjection _ _ => False
  | ofDigester _ _ => False
  | _ => True

/-- The pattern whose carriers go on as they are. -/
def source? : Request → Option Pattern
  | adapt p _ => some p
  | drop p _ => some p
  | _ => none

theorem readable {req : Request} (hsettles : req.Settles) (hsource : ∀ q, req.source? = some q → q.Readable)
    (hst : st.Reachable) (h : req.build.exec st = (.ok p, st')) : p.Readable := by
  cases req with
  | parts d tryMatch components => cases hsettles
  | lazyProjection target extractors => cases hsettles
  | ofDigester d digester => cases hsettles
  | ofType t => exact readable_ofType h
  | ofTypeFor t target =>
    obtain ⟨q, u, hq, h⟩ := Build.exec_bind_ok h
    exact (readable_ofType hq).adapts ⟨u, st', h⟩
  | nullable t => exact readable_nullable h
  | nullableFor t target =>
    obtain ⟨q, u, hq, h⟩ := Build.exec_bind_ok h
    exact (readable_nullable hq).adapts ⟨u, st', h⟩
  | ofConstant c => exact readable_ofConstant h
  | ofConstantFor c target =>
    obtain ⟨q, u, hq, h⟩ := Build.exec_bind_ok h
    exact (readable_ofConstant hq).adapts ⟨u, st', h⟩
  | eagerProjection target extractors => exact readable_ofEagerProjection hst h
  | ofRecord c => exact readable_ofRecord hst h
  | adapt p target => exact (hsource p rfl).adapts ⟨st, st', h⟩
  | drop p positions => exact (hsource p rfl).drop h
  | nested outer inners => exact readable_nested hst h

end Request

/-- The patterns that come out of requests of which none puts off reading a binding. -/
inductive Settled : Pattern → Prop
  | of (req : Request) {st st' : Store} {p : Pattern} :
    req.Settles → (∀ q, req.source? = some q → Settled q) → st.Reachable → req.build.exec st = (.ok p, st') →
    Settled p

theorem Settled.readable (h : p.Settled) : p.Readable := by
  induction h with
  | of req hsettles _ hst hexec ih => exact Request.readable hsettles ih hst hexec

/-! ## What a consumer gives -/

/-- The composed handle runs the pattern and then the consumer. -/
theorem mints_compose (default : Value) (hparams : consumer.sig.params = p.descriptor.bindings) :
    (compose p consumer default).Mints fun h =>
      h.sig = .unary p.descriptor.target consumer.sig.ret ∧ ∀ v, h.invoke [v] = p.consume consumer default v := by
  intro st
  unfold compose
  rw [Build.exec_bind, Build.exec_registry]
  simp only [hparams, if_true]
  apply (Build.mints_handle _ _).mono
  rintro h ⟨hsig, id, hbody⟩
  refine ⟨hsig, ?_⟩
  intro v
  rw [Handle.invoke, hbody]
  rfl

theorem consume_of_bound (h : (p.matchBindings v).exec r s = (some vs, t)) :
    (p.consume consumer default v).exec r s = (consumer.invoke vs).exec r t := by
  obtain ⟨w, u, hmatch, hbindings⟩ := Run.exec_bind_some h
  unfold consume
  rw [Run.exec_bind_of_some (Run.exec_attempt _ r s), hmatch]
  exact Run.exec_bind_of_some hbindings

/-- Without bindings it depends on whether there is a carrier all the same. -/
theorem consume_of_unbound (h : (p.matchBindings v).exec r s = (none, t)) :
    (p.consume consumer default v).exec r s =
      (if ((p.matchCarrier v).exec r s).1.isSome then none else some default, t) := by
  unfold consume
  rw [Run.exec_bind_of_some (Run.exec_attempt _ r s)]
  unfold matchBindings at h
  rcases hmatch : (p.matchCarrier v).exec r s with ⟨_ | w, u⟩
  · rw [Run.exec_bind_of_none hmatch] at h
    cases h
    rfl
  · rw [Run.exec_bind_of_some hmatch] at h
    exact Run.exec_bind_of_none h

theorem Readable.not_matches (hp : p.Readable) (h : (p.matchBindings v).exec r s = (none, t)) :
    ((p.matchCarrier v).exec r s).1 = none := by
  rcases hmatch : (p.matchCarrier v).exec r s with ⟨_ | w, u⟩
  · rfl
  · obtain ⟨vs, u', hbindings⟩ := hp.exec_bindings hmatch
    rw [matchBindings, Run.exec_bind_of_some hmatch, hbindings] at h
    cases h

/-! ## The law -/

/-- A consumer of the bindings can be composed with the pattern. On a target that binds
values it is called with them. On another target the default stands for it if there is
no carrier; if there is one and a binding cannot be read out of it, the handle does not
match. That never happens where no reading of a binding was put off. -/
theorem the_default_stands_for_a_target_without_a_carrier (p : Pattern) (consumer : Handle) (default : Value)
    (st : Store) (hparams : consumer.sig.params = p.descriptor.bindings) :
    ∃ h run, (compose p consumer default).exec st = (.ok h, { st with run }) ∧
      h.sig = .unary p.descriptor.target consumer.sig.ret ∧
      ∀ v r s,
        (∀ vs t, (p.matchBindings v).exec r s = (some vs, t) →
          (h.invoke [v]).exec r s = (consumer.invoke vs).exec r t) ∧
        (∀ t, (p.matchBindings v).exec r s = (none, t) →
          (h.invoke [v]).exec r s =
            (if ((p.matchCarrier v).exec r s).1.isSome then none else some default, t)) ∧
        (p.Settled → ∀ t, (p.matchBindings v).exec r s = (none, t) →
          (h.invoke [v]).exec r s = (some default, t)) := by
  obtain ⟨h, run, hexec, hsig, hinvoke⟩ := mints_compose default hparams st
  refine ⟨h, run, hexec, hsig, ?_⟩
  intro v r s
  rw [hinvoke v]
  refine ⟨fun vs t => consume_of_bound, fun t => consume_of_unbound, ?_⟩
  intro hsettled t hnone
  rw [consume_of_unbound hnone, hsettled.readable.not_matches hnone]
  rfl

/-- The law on the pattern for strings with a consumer that gives its argument back. -/
theorem the_default_stands_for_a_number_among_strings :
    ∃ p st h st', (ofType .string).exec (.initial []) = (.ok p, st) ∧ p.descriptor.bindings = [.string] ∧
      (compose p ⟨.unary .string .string, .identity 1⟩ (.str "none")).exec st = (.ok h, st') ∧
      (h.invoke [.str "x"]).exec .initial .initial = (some (.str "x"), .initial) ∧
      (h.invoke [.int 7]).exec .initial .initial = (some (.str "none"), .initial) := by
  obtain ⟨p, st, hp, hbindings, hmatch, hother⟩ : ∃ p st, (ofType .string).exec (.initial []) = (.ok p, st) ∧
      p.descriptor.bindings = [.string] ∧
      (p.matchBindings (.str "x")).exec .initial .initial = (some [.str "x"], .initial) ∧
      (p.matchBindings (.int 7)).exec .initial .initial = (none, .initial) := ⟨_, _, rfl, rfl, rfl, rfl⟩
  have hsettled : p.Settled :=
    .of (.ofType .string) trivial (fun q hq => by cases hq) (Store.reachable_initial []) hp
  obtain ⟨h, run, hcompose, -, law⟩ := the_default_stands_for_a_target_without_a_carrier p
    ⟨.unary .string .string, .identity 1⟩ (.str "none") st hbindings.symm
  refine ⟨p, st, h, _, hp, hbindings, hcompose, ?_, ?_⟩
  · exact (law (.str "x") .initial .initial).1 _ _ hmatch
  · exact (law (.int 7) .initial .initial).2.2 hsettled _ hother

/-- A lazy projection whose extractor never matches binds nothing, and the default does
not stand for its targets. -/
theorem the_default_does_not_stand_for_an_unread_binding :
    ∃ p st h st', (ofLazyProjection .string [⟨.unary .string .string, .never 1⟩]).exec (.initial []) = (.ok p, st) ∧
      p.descriptor.bindings = [.string] ∧
      (compose p ⟨.unary .string .string, .identity 2⟩ (.str "none")).exec st = (.ok h, st') ∧
      ((p.matchBindings (.str "x")).exec .initial .initial).1 = none ∧
      ((h.invoke [.str "x"]).exec .initial .initial).1 = none :=
  ⟨_, _, _, _, rfl, rfl, rfl, rfl, rfl⟩

end PatternDispatch.Pattern

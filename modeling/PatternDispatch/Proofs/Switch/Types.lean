-- The laws of type switches. A kept answer is what a scan would give now: for a
-- switch on classes the answer depends on the runtime class alone, all restarts past
-- the last label are one, and what is defined later changes nothing for a class that
-- is there. Only for a class that was dispatched on before it was issued, under an id
-- of another registry, does the kept answer go stale.
import PatternDispatch.Proofs.Building
import PatternDispatch.Proofs.Naming
import PatternDispatch.Proofs.Running
import PatternDispatch.Proofs.Switch.Index
import PatternDispatch.Switch.Types

namespace PatternDispatch

theorem Value.isNull_eq_class? (v : Value) : v.isNull = v.class?.isNone := by
  cases v <;> simp [class?, scalar?, isNull]

namespace TypeSwitch

variable {r r' : Registry} {labels : List Label} {v w : Value} {vs : List Value} {restart k : Nat} {i : Int32}
  {memo : Memo} {t : TypeSwitch} {s s' : RunState} {st st' u : Store} {c : ClassId} {d : ClassDef}
  {classes : ClassId → Prop}

/-! ## The answer by the labels -/

/-- The answer for a target: -1 for null, the position of the first label from the
restart on that accepts it, and the number of labels if none does. -/
inductive Answers (r : Registry) (labels : List Label) : Value → Nat → Int → Prop
  | null {restart : Nat} : Answers r labels .null restart (-1)
  | first {v : Value} {restart i : Nat} {label : Label} :
    v ≠ .null → restart ≤ i → labels[i]? = some label → label.accepts r v = true →
    (∀ (j : Nat) l, restart ≤ j → j < i → labels[j]? = some l → l.accepts r v = false) →
    Answers r labels v restart i
  | miss {v : Value} {restart : Nat} :
    v ≠ .null → (∀ (j : Nat) l, restart ≤ j → labels[j]? = some l → l.accepts r v = false) →
    Answers r labels v restart labels.length

theorem answers_scanLabels (hcount : labels.length < 2 ^ 31) (r : Registry) (v : Value) (restart : Nat) :
    Answers r labels v restart (scanLabels r labels v restart).toInt := by
  unfold scanLabels
  by_cases hv : v = .null
  · subst hv
    exact .null
  · rw [if_neg (mt Value.isNull_iff.mp hv)]
    cases hfirst : Switch.firstFrom (·.accepts r v) labels restart with
    | none =>
      rw [Switch.indexOr, Switch.toInt_caseIndex hcount]
      exact .miss hv fun j l hj hl => Switch.not_of_firstFrom_none hfirst hj hl
    | some i =>
      obtain ⟨hi, ⟨label, hlabel, hacc⟩, hbefore⟩ := Switch.of_firstFrom_some hfirst
      have hlt := (List.getElem?_eq_some_iff.mp hlabel).1
      rw [Switch.indexOr, Switch.toInt_caseIndex (by omega)]
      exact .first hv hi hlabel hacc hbefore

/-- Labels that accept the one target just when they accept the other give one answer. -/
theorem scanLabels_congr (hnull : v.isNull = w.isNull)
    (h : ∀ label ∈ labels, label.accepts r v = label.accepts r' w) :
    scanLabels r labels v restart = scanLabels r' labels w restart := by
  unfold scanLabels
  rw [hnull, Switch.firstFrom_congr h]

/-- A switch on classes looks at nothing but the runtime class. -/
theorem scanLabels_of_class (hcls : labels.all Label.isClass) (h : v.class? = w.class?) :
    scanLabels r labels v restart = scanLabels r labels w restart := by
  apply scanLabels_congr
  · rw [v.isNull_eq_class?, w.isNull_eq_class?, h]
  · intro label hlabel
    cases label with
    | cls c => simp only [Label.accepts, Value.isInstance, h]
    | _ => simpa [Label.isClass] using List.all_eq_true.mp hcls _ hlabel

/-- All restarts past the last label are one. -/
theorem scanLabels_min (r : Registry) (labels : List Label) (v : Value) (restart : Nat) :
    scanLabels r labels v (min restart labels.length) = scanLabels r labels v restart := by
  unfold scanLabels
  rw [Switch.firstFrom_min]

/-- A definition changes no answer for a class other than the new one. -/
theorem scanLabels_define (hr : r.Ordered) (hd : ∀ p ∈ d.info.parents, p.index < r.size)
    (hcls : labels.all Label.isClass) (hv : v.class? = some c)
    (hc : c.index < (r.define d).2.size → c.index < r.size) :
    scanLabels (r.define d).2 labels v restart = scanLabels r labels v restart := by
  rcases Registry.define_cases r d with hdefine | hdefine
  · rw [hdefine]
  have hold : c.index ≠ r.size := by
    rw [hdefine, Registry.size_issue] at hc
    omega
  apply scanLabels_congr rfl
  intro label hlabel
  cases label with
  | cls b => simp only [Label.accepts, Value.isInstance, hv, Registry.isSubclass_define hr hd hold]
  | _ => simpa [Label.isClass] using List.all_eq_true.mp hcls _ hlabel

/-! ## Kept answers -/

/-- What is remembered is what a scan gives, if so is what is kept for the class. -/
theorem remember_fst (h : ∀ c k i, v.class? = some c → ((c, k), i) ∈ memo → scanLabels r labels v k = i)
    (restart : Nat) : (remember r labels memo v restart).1 = scanLabels r labels v restart := by
  unfold remember
  cases hv : v.class? with
  | none => rfl
  | some c =>
    simp only
    cases hlookup : List.lookup (c, min restart labels.length) memo with
    | some i =>
      calc
        i = scanLabels r labels v (min restart labels.length) := (h _ _ _ hv (mem_of_lookup hlookup)).symm
        _ = scanLabels r labels v restart := scanLabels_min r labels v restart
    | none => exact scanLabels_min r labels v restart

/-- Whatever is kept afterwards was kept before, or is what a scan gives for the target. -/
theorem mem_remember {e : (ClassId × Nat) × Int32} (h : e ∈ (remember r labels memo v restart).2) :
    e ∈ memo ∨ v.class? = some e.1.1 ∧ scanLabels r labels v e.1.2 = e.2 := by
  unfold remember at h
  cases hv : v.class? with
  | none =>
    simp only [hv] at h
    exact Or.inl h
  | some c =>
    simp only [hv] at h
    split at h
    · exact Or.inl h
    · rcases List.mem_cons.mp h with rfl | h
      · exact Or.inr ⟨rfl, rfl⟩
      · exact Or.inl h

/-- The switch keeps this answer for a class and a restart. -/
def Keeps (t : TypeSwitch) (s : RunState) (c : ClassId) (k : Nat) (i : Int32) : Prop :=
  ∃ cell, t.memo = some cell ∧ ((c, k), i) ∈ s.memos[cell]?.getD []

/-- What is kept for one of these classes is what a scan gives now, for every target of
the class. -/
def InOrder (t : TypeSwitch) (r : Registry) (labels : List Label) (classes : ClassId → Prop) (s : RunState) :
    Prop :=
  ∀ c k i, t.Keeps s c k i → classes c → ∀ w : Value, w.class? = some c → scanLabels r labels w k = i

theorem not_keeps_of_empty (h : ∀ cell, t.memo = some cell → s.memos[cell]? = some []) : ¬ t.Keeps s c k i := by
  rintro ⟨cell, hcell, hmem⟩
  rw [h cell hcell] at hmem
  cases hmem

theorem inOrder_of_empty (h : ∀ cell, t.memo = some cell → s.memos[cell]? = some []) :
    t.InOrder r labels classes s := by
  intro c k i hkept
  exact absurd hkept (not_keeps_of_empty h)

theorem Keeps.of_memos_eq (hmemos : ∀ cell, t.memo = some cell → s'.memos[cell]? = s.memos[cell]?)
    (h : t.Keeps s' c k i) : t.Keeps s c k i := by
  obtain ⟨cell, hcell, hmem⟩ := h
  exact ⟨cell, hcell, hmemos cell hcell ▸ hmem⟩

theorem InOrder.of_memos_eq (h : t.InOrder r labels classes s)
    (hmemos : ∀ cell, t.memo = some cell → s'.memos[cell]? = s.memos[cell]?) : t.InOrder r labels classes s' := by
  intro c k i hkeeps
  exact h c k i (hkeeps.of_memos_eq hmemos)

/-- Whatever is kept after a dispatch was kept before, or is what a scan gives for the
target. -/
theorem keeps_of_dispatch (h : t.Keeps ((t.dispatch v restart).exec r s).2 c k i) :
    t.Keeps s c k i ∨ v.class? = some c ∧ scanLabels r t.labels v k = i := by
  obtain ⟨cell, hcell, hmem⟩ := h
  have hafter : ((t.dispatch v restart).exec r s).2.memos =
      s.memos.setIfInBounds cell (remember r t.labels (s.memos[cell]?.getD []) v restart).2 := by
    unfold TypeSwitch.dispatch
    rw [hcell]
    rfl
  rw [hafter, Array.getElem?_setIfInBounds, if_pos rfl] at hmem
  split at hmem
  · exact (mem_remember hmem).imp_left fun hmem => ⟨cell, hcell, hmem⟩
  · cases hmem

/-! ## Switches that are built -/

/-- The switch is on the labels, and keeps answers only if they are classes. -/
structure Built (t : TypeSwitch) (labels : List Label) : Prop where
  labels_eq : t.labels = labels
  count_lt : labels.length < 2 ^ 31
  class_only : ∀ cell, t.memo = some cell → labels.all Label.isClass

/-- A new switch has kept nothing. -/
theorem ofLabels_ok (hcount : labels.length < 2 ^ 31) (st : Store) :
    ∃ t run, (ofLabels labels).exec st = (.ok t, { st with run }) ∧ t.Built labels ∧
      ∀ cell, t.memo = some cell → run.memos[cell]? = some [] := by
  unfold ofLabels
  rw [Switch.checkCount_of_lt hcount, Build.exec_bind, Build.exec_ofExcept]
  simp only
  split
  · rename_i hcls
    refine ⟨_, _, rfl, ⟨rfl, hcount, fun _ _ => hcls⟩, ?_⟩
    intro cell hcell
    cases hcell
    simp
  · exact ⟨⟨labels, none⟩, st.run, rfl, ⟨rfl, hcount, nofun⟩, nofun⟩

/-- A switch refuses nothing but too many labels. -/
theorem ofLabels_fails_iff {st : Store} {e : BuildError} :
    (ofLabels labels).Fails st e ↔ Switch.checkCount labels.length = .error e := by
  unfold ofLabels
  refine (Build.fails_bind_iff_left ?_).trans Build.fails_ofExcept_iff
  intro _ t _
  split
  · exact Build.not_fails_of_exec rfl
  · exact Build.not_fails_of_exec (Build.exec_pure _ t)

theorem count_lt_of_ofLabels (h : (ofLabels labels).exec st = (.ok t, st')) : labels.length < 2 ^ 31 := by
  obtain ⟨⟨⟩, _, hcheck, -⟩ := Build.exec_bind_ok h
  exact Switch.checkCount_ok (Build.exec_ofExcept_ok hcheck).1

theorem Built.isClass_of_keeps (ht : t.Built labels) (h : t.Keeps s c k i) : labels.all Label.isClass := by
  obtain ⟨cell, hcell, -⟩ := h
  exact ht.class_only cell hcell

/-- A dispatch answers as a scan, if what is kept for the class of its target is in order. -/
theorem Built.dispatch_eq (ht : t.Built labels) (hs : t.InOrder r labels classes s)
    (hv : t.isClassOnly → ∀ c, v.class? = some c → classes c) (restart : Nat) :
    ((t.dispatch v restart).exec r s).1 = some (scanLabels r labels v restart) := by
  obtain rfl := ht.labels_eq
  unfold TypeSwitch.dispatch
  cases hmemo : t.memo with
  | none => rfl
  | some cell =>
    refine congrArg some (remember_fst ?_ restart)
    intro c k i hc hmem
    exact hs c k i ⟨cell, hmemo, hmem⟩ (hv (by simp [isClassOnly, hmemo]) c hc) v hc

/-- A dispatch leaves in order what was in order, whatever its target. -/
theorem Built.inOrder_dispatch (ht : t.Built labels) (hs : t.InOrder r labels classes s) (v : Value)
    (restart : Nat) : t.InOrder r labels classes ((t.dispatch v restart).exec r s).2 := by
  intro c k i hkeeps hc w hw
  rcases keeps_of_dispatch hkeeps with hkept | ⟨hv, hi⟩
  · exact hs c k i hkept hc w hw
  · rw [← hi, ht.labels_eq]
    exact scanLabels_of_class (ht.isClass_of_keeps hkeeps) (hw.trans hv.symm)

/-! ## Histories of a switch -/

/-- A dispatch that was made: its target, and how many classes had been issued. -/
structure Asked where
  target : Value
  issued : Nat

/-- What can happen from the store on that a switch was built over, with the dispatches
on the way, the latest first. -/
inductive History (t : TypeSwitch) (st : Store) : List Asked → Store → Prop
  | start : History t st [] st
  | dispatches {log : List Asked} {u : Store} (v : Value) (restart : Nat) :
    History t st log u →
    History t st (⟨v, u.registry.size⟩ :: log) ((Build.run (t.dispatch v restart)).exec u).2
  /-- A class is defined after its parents. -/
  | defines {log : List Asked} {u : Store} (d : ClassDef) :
    History t st log u → (∀ p ∈ d.info.parents, p.index < u.registry.size) →
    History t st log ((Build.define d).exec u).2
  /-- Whatever else happens leaves the classes and the kept answers as they are. -/
  | others {log : List Asked} {u u' : Store} :
    History t st log u → u'.registry = u.registry →
    (∀ cell, t.memo = some cell → u'.run.memos[cell]? = u.run.memos[cell]?) → History t st log u'

/-- The class is issued, but there was a dispatch on a target of it before it was. Such a
target had its class from another registry, which issues the same ids. -/
def IssuedLate (r : Registry) (log : List Asked) (c : ClassId) : Prop :=
  c.index < r.size ∧ ∃ e ∈ log, e.target.class? = some c ∧ e.issued ≤ c.index

theorem issuedLate_cons : IssuedLate r (⟨v, r.size⟩ :: log) c ↔ IssuedLate r log c := by
  unfold IssuedLate
  refine and_congr_right fun hc => ⟨?_, ?_⟩
  · rintro ⟨e, he, hclass, hle⟩
    rcases List.mem_cons.mp he with rfl | he
    · exact absurd hc (Nat.not_lt.mpr hle)
    · exact ⟨e, he, hclass, hle⟩
  · rintro ⟨e, he, hlate⟩
    exact ⟨e, List.mem_cons_of_mem _ he, hlate⟩

theorem IssuedLate.define (h : IssuedLate r log c) (d : ClassDef) :
    IssuedLate (r.define d).2 log c :=
  ⟨h.1.trans_le (r.size_le_define d), h.2⟩

/-- What holds of the store all along a history: every kept answer was for the class of a
dispatch, and is what a scan gives now unless the class was issued late. -/
structure Sound (t : TypeSwitch) (labels : List Label) (log : List Asked) (u : Store) : Prop where
  ordered : u.registry.Ordered
  issued_le : ∀ e ∈ log, e.issued ≤ u.registry.size
  asked : ∀ c k i, t.Keeps u.run c k i → ∃ e ∈ log, e.target.class? = some c
  in_order : t.InOrder u.registry labels (fun c => ¬ IssuedLate u.registry log c) u.run

theorem built_of_ofLabels (hr : st.registry.Ordered) (h : (ofLabels labels).exec st = (.ok t, st')) :
    t.Built labels ∧ t.Sound labels [] st' := by
  obtain ⟨t', run, hexec, hb, hempty⟩ := ofLabels_ok (count_lt_of_ofLabels h) st
  rw [hexec] at h
  cases h
  refine ⟨hb, hr, nofun, ?_, inOrder_of_empty hempty⟩
  intro c k i hkept
  exact absurd hkept (not_keeps_of_empty hempty)

theorem Sound.dispatch (hs : t.Sound labels log u) (ht : t.Built labels) (v : Value) (restart : Nat) :
    t.Sound labels (⟨v, u.registry.size⟩ :: log) ((Build.run (t.dispatch v restart)).exec u).2 := by
  refine ⟨hs.ordered, ?_, ?_, ?_⟩
  · exact List.forall_mem_cons.mpr ⟨Nat.le_refl _, hs.issued_le⟩
  · intro c k i hkeeps
    rcases keeps_of_dispatch hkeeps with hkept | ⟨hv, -⟩
    · obtain ⟨e, he, hclass⟩ := hs.asked c k i hkept
      exact ⟨e, List.mem_cons_of_mem _ he, hclass⟩
    · exact ⟨_, List.mem_cons_self, hv⟩
  · intro c k i hkeeps hc
    exact ht.inOrder_dispatch hs.in_order v restart c k i hkeeps (mt issuedLate_cons.mpr hc)

/-- A class that was dispatched on and is not issued late is no new one. -/
theorem Sound.define (hs : t.Sound labels log u) (ht : t.Built labels)
    (hd : ∀ p ∈ d.info.parents, p.index < u.registry.size) :
    t.Sound labels log ((Build.define d).exec u).2 := by
  refine ⟨hs.ordered.define hd, ?_, hs.asked, ?_⟩
  · intro e he
    exact (hs.issued_le e he).trans (u.registry.size_le_define d)
  · intro c k i hkept hc w hw
    obtain ⟨e, he, hclass⟩ := hs.asked c k i hkept
    have hold : c.index < (u.registry.define d).2.size → c.index < u.registry.size := by
      intro hlt
      have hissued : ¬ e.issued ≤ c.index := fun hle => hc ⟨hlt, e, he, hclass, hle⟩
      have := hs.issued_le e he
      omega
    calc
      scanLabels (u.registry.define d).2 labels w k = scanLabels u.registry labels w k :=
        scanLabels_define hs.ordered hd (ht.isClass_of_keeps hkept) hw hold
      _ = i := hs.in_order c k i hkept (fun hlate => hc (hlate.define d)) w hw

theorem History.sound (h : t.History st log u) (ht : t.Built labels) (hs : t.Sound labels [] st) :
    t.Sound labels log u := by
  induction h with
  | start => exact hs
  | dispatches v restart _ ih => exact ih.dispatch ht v restart
  | defines d _ hd ih => exact ih.define ht hd
  | others _ hregistry hmemos ih =>
    refine ⟨by rw [hregistry]; exact ih.ordered, by rw [hregistry]; exact ih.issued_le, ?_, ?_⟩
    · intro c k i hkeeps
      exact ih.asked c k i (hkeeps.of_memos_eq hmemos)
    · rw [hregistry]
      exact ih.in_order.of_memos_eq hmemos

/-! ## Histories in which no class is issued late -/

/-- What can happen from the store on that a switch was built over as long as no class is
issued late, with the targets dispatched on the way, the latest first. -/
inductive Runs (t : TypeSwitch) (st : Store) : List Value → Store → Prop
  | start : Runs t st [] st
  | dispatches {vs : List Value} {u : Store} (v : Value) (restart : Nat) :
    Runs t st vs u → Runs t st (v :: vs) ((Build.run (t.dispatch v restart)).exec u).2
  /-- A class is defined after its parents, and before there are values of it. The
  registry does not see to the latter: a value may have its class from another registry,
  and what is kept for it goes stale, as shown below the law. -/
  | defines {vs : List Value} {u : Store} (d : ClassDef) :
    Runs t st vs u → (∀ p ∈ d.info.parents, p.index < u.registry.size) →
    (∀ v ∈ vs, ∀ c, v.class? = some c → c.index ≠ u.registry.size) →
    Runs t st vs ((Build.define d).exec u).2
  /-- Whatever else happens leaves the classes and the kept answers as they are. -/
  | others {vs : List Value} {u u' : Store} :
    Runs t st vs u → u'.registry = u.registry →
    (∀ cell, t.memo = some cell → u'.run.memos[cell]? = u.run.memos[cell]?) → Runs t st vs u'

theorem Runs.history (h : t.Runs st vs u) :
    ∃ log, t.History st log u ∧ log.map Asked.target = vs ∧ ∀ c, ¬ IssuedLate u.registry log c := by
  induction h with
  | start => exact ⟨[], .start, rfl, fun c hc => by simpa using hc.2⟩
  | @dispatches vs u v restart _ ih =>
    obtain ⟨log, hhistory, rfl, hnone⟩ := ih
    exact ⟨⟨v, u.registry.size⟩ :: log, .dispatches v restart hhistory, rfl,
      fun c hc => hnone c (issuedLate_cons.mp hc)⟩
  | @defines vs u d _ hd hnew ih =>
    obtain ⟨log, hhistory, rfl, hnone⟩ := ih
    refine ⟨log, .defines d hhistory hd, rfl, ?_⟩
    rintro c ⟨hlt, e, he, hclass, hle⟩
    have hne : c.index ≠ u.registry.size := hnew e.target (List.mem_map_of_mem he) c hclass
    have hold : ¬ c.index < u.registry.size := fun hlt => hnone c ⟨hlt, e, he, hclass, hle⟩
    have hsize : (u.registry.define d).2.size ≤ u.registry.size + 1 := u.registry.size_define_le d
    have hlt : c.index < (u.registry.define d).2.size := hlt
    omega
  | others _ hregistry hmemos ih =>
    obtain ⟨log, hhistory, htargets, hnone⟩ := ih
    exact ⟨log, .others hhistory hregistry hmemos, htargets, by rwa [hregistry]⟩

/-- All that is kept is in order. -/
theorem Runs.inOrder (h : t.Runs st vs u) (ht : t.Built labels) (hs : t.Sound labels [] st) :
    t.InOrder u.registry labels (fun _ => True) u.run := by
  obtain ⟨log, hhistory, -, hnone⟩ := h.history
  intro c k i hkept _
  exact (hhistory.sound ht hs).in_order c k i hkept (hnone c)

/-! ## The law -/

/-- Whatever was dispatched before and whatever classes were defined since, a switch
answers as a scan at that moment: -1 for null, else the first label from the restart on
that accepts the target, and the number of labels if none does. This holds for switches
that keep no answers on every target, and for those that keep them on every target whose
class was not issued late. -/
theorem a_kept_answer_is_that_of_a_scan (hst : st.registry.Grown) (h : (ofLabels labels).exec st = (.ok t, st'))
    (hhistory : t.History st' log u)
    (hv : t.isClassOnly → ∀ c, v.class? = some c → ¬ IssuedLate u.registry log c) (restart : Nat) :
    ∃ i, ((t.dispatch v restart).exec u.registry u.run).1 = some i ∧
      ((t.scan v restart).exec u.registry u.run).1 = some i ∧
      Answers u.registry labels v restart i.toInt := by
  obtain ⟨ht, hs⟩ := built_of_ofLabels hst.ordered h
  have hanswer := ht.dispatch_eq (hhistory.sound ht hs).in_order hv restart
  refine ⟨_, hanswer, ?_, answers_scanLabels ht.count_lt _ v restart⟩
  rw [← ht.labels_eq]
  rfl

/-- The law on a switch over numbers and strings that has answered for a string before
another class was defined: the answer that it kept still is that of a scan. -/
theorem an_answer_outlives_a_definition :
    ∃ t st u, (ofLabels [.cls .number, .cls .string]).exec (.initial []) = (.ok t, st) ∧
      t.History st [⟨.str "a", 14⟩] u ∧ u.run.memos = #[[((.string, 0), 1)]] ∧ u.registry.size = 15 ∧
      (∀ c, (Value.str "b").class? = some c → ¬ IssuedLate u.registry [⟨.str "a", 14⟩] c) ∧
      ∃ i, ((t.dispatch (.str "b") 0).exec u.registry u.run).1 = some i ∧
        ((t.scan (.str "b") 0).exec u.registry u.run).1 = some i ∧
        Answers u.registry [.cls .number, .cls .string] (.str "b") 0 i.toInt := by
  obtain ⟨t, st, u, hbuild, hhistory, hmemos, hsize⟩ :
      ∃ t st u, (ofLabels [.cls .number, .cls .string]).exec (.initial []) = (.ok t, st) ∧
        t.History st [⟨.str "a", 14⟩] u ∧ u.run.memos = #[[((.string, 0), 1)]] ∧ u.registry.size = 15 :=
    ⟨_, _, _, rfl, .defines (ClassDef.named "Shape") (.dispatches (.str "a") 0 .start) (by decide), rfl, rfl⟩
  have hv : ∀ c, (Value.str "b").class? = some c → ¬ IssuedLate u.registry [⟨.str "a", 14⟩] c := by
    rintro c hc ⟨-, e, he, -, hle⟩
    cases hc
    cases List.mem_singleton.mp he
    exact absurd hle (by decide)
  exact ⟨t, st, u, hbuild, hhistory, hmemos, hsize, hv,
    a_kept_answer_is_that_of_a_scan .initial hbuild hhistory (fun _ => hv) 0⟩

/-- On a class that is issued late the law fails. Another registry gives its first class
the id 14, and the switch answers for an object of it that it is no string. Then a class
below strings is defined here, and it gets that id: a scan now finds the string label, and
the switch answers what it has kept. -/
theorem a_kept_answer_goes_stale :
    (Registry.initial.define (ClassDef.named "Other")).1 = ⟨14⟩ ∧
    ∃ t st u, (ofLabels [.cls .string]).exec (.initial []) = (.ok t, st) ∧
      t.History st [⟨.object ⟨14⟩ [], 14⟩] u ∧ IssuedLate u.registry [⟨.object ⟨14⟩ [], 14⟩] ⟨14⟩ ∧
      ((t.dispatch (.object ⟨14⟩ []) 0).exec u.registry u.run).1 = some 1 ∧
      ((t.scan (.object ⟨14⟩ []) 0).exec u.registry u.run).1 = some 0 := by
  refine ⟨by decide, _, _, _, rfl, .defines ((ClassDef.named "Sub").extending .string)
    (.dispatches (.object ⟨14⟩ []) 0 .start) (by decide), ?_, rfl, ?_⟩
  · exact ⟨by decide, _, List.mem_singleton_self _, rfl, Nat.le_refl _⟩
  · rfl

end TypeSwitch

end PatternDispatch

-- The laws of call sites that relink. The generic handle of a switch and the one it
-- links to answer alike, so no call tells whether the site has linked.
import PatternDispatch.Proofs.Switch.Constants
import PatternDispatch.Proofs.Switch.Numeric
import PatternDispatch.Proofs.Switch.Strings
import PatternDispatch.Proofs.Switch.Types
import PatternDispatch.Site.Checked

namespace PatternDispatch

/-! ## Handles that answer -/

/-- As long as the state of the run is in order, the handle answers by the function,
and leaves the state in order. -/
def Handle.AnswersBy (h : Handle) (r : Registry) (inOrder : RunState → Prop)
    (answer : List Value → Option Value) : Prop :=
  ∀ args s, inOrder s →
    ((h.invoke args).exec r s).1 = answer args ∧ inOrder ((h.invoke args).exec r s).2

/-- The answer to a call with one argument. -/
def unaryAnswer (index : Value → Int32) : List Value → Option Value
  | [v] => some (.int (index v))
  | _ => none

/-- The answer to a call with a target and a restart. -/
def restartAnswer (index : Value → Nat → Int32) (args : List Value) : Option Value :=
  (LazySite.restartArgs? args).map fun (v, restart) => .int (index v restart)

theorem answersBy_unary (sig : Signature) (id : Nat) (index : Value → Int32) (r : Registry) :
    (Handle.mk sig (.unary id fun v => return .int (index v))).AnswersBy r (fun _ => True)
      (unaryAnswer index) := by
  intro args s _
  refine ⟨?_, trivial⟩
  rcases args with _ | ⟨v, _ | ⟨w, rest⟩⟩ <;> rfl

theorem answersBy_restartable {sig : Signature} {id : Nat} {answer : Value → Nat → Run Int32} {r : Registry}
    {inOrder : RunState → Prop} {index : Value → Nat → Int32}
    (h : ∀ v restart s, inOrder s →
      ((answer v restart).exec r s).1 = some (index v restart) ∧ inOrder ((answer v restart).exec r s).2) :
    (Handle.mk sig ⟨id, fun args => do
      let (v, restart) ← Run.ofOption (LazySite.restartArgs? args)
      return .int (← answer v restart)⟩).AnswersBy r inOrder (restartAnswer index) := by
  intro args s hs
  simp only [Handle.invoke, restartAnswer]
  cases hargs : LazySite.restartArgs? args with
  | none => exact ⟨rfl, hs⟩
  | some e =>
    obtain ⟨v, restart⟩ := e
    obtain ⟨hanswer, horder⟩ := h v restart s hs
    rcases hrun : (answer v restart).exec r s with ⟨a, s'⟩
    rw [hrun] at hanswer horder
    cases hanswer
    rw [Run.exec_bind_of_some (Run.exec_ofOption _ r s), Run.exec_bind_of_some hrun]
    exact ⟨rfl, horder⟩

/-! ## Sites of two handles that answer alike -/

namespace LazySite

/-- The generic handle and any that the site can link to answer by the function. Links
do not count for the order of the state. -/
structure Steady (site : LazySite) (r : Registry) (inOrder : RunState → Prop)
    (answer : List Value → Option Value) : Prop where
  uncounted : site.linker.counter = none
  links : ∀ s links, inOrder s → inOrder { s with links }
  generic : site.generic.AnswersBy r inOrder answer
  linked : ∀ args, (site.linker.choose args).AnswersBy r inOrder answer

variable {site : LazySite} {r : Registry} {inOrder : RunState → Prop} {answer : List Value → Option Value}

theorem Steady.standing (h : site.Steady r inOrder answer) (linked : Option (List Value)) :
    (site.standing linked).AnswersBy r inOrder answer := by
  cases linked with
  | none => exact h.generic
  | some args =>
    simp only [LazySite.standing, published]
    split
    · exact h.linked args
    · exact h.generic

theorem Steady.chosen (h : site.Steady r inOrder answer) (linked : Option (List Value)) (args : List Value) :
    (site.chosen linked args).AnswersBy r inOrder answer := by
  unfold LazySite.chosen
  split
  · exact h.standing _
  · exact h.generic

theorem Steady.exec_link (h : site.Steady r inOrder answer) (args : List Value) (s : RunState) :
    (site.link args).exec r s = (some (), { s with links := s.links.setIfInBounds site.cell (some args) }) := by
  unfold link
  rw [h.uncounted]
  rfl

/-- Whether it relinks or not, and whether it has linked or not, the site answers by the
function. -/
theorem Steady.invoke (h : site.Steady r inOrder answer) (args : List Value) {s : RunState} (hs : inOrder s) :
    ((site.invoke args).exec r s).1 = answer args ∧ inOrder ((site.invoke args).exec r s).2 := by
  have hget : (get : Run RunState).exec r s = (some s, s) := rfl
  unfold LazySite.invoke
  rw [Run.exec_bind_of_some hget]
  simp only
  split
  · rw [Run.exec_bind_of_some (h.exec_link args s)]
    exact h.chosen _ args args _ (h.links s _ hs)
  · exact h.chosen _ args args s hs

end LazySite

/-! ## Indices among labels -/

/-- An index for a target among `n` labels: -1 for null alone, else a position or `n`. -/
def Switch.InRange (n : Nat) (v : Value) (i : Int32) : Prop :=
  -1 ≤ i.toInt ∧ i.toInt ≤ n ∧ (i.toInt = -1 ↔ v = .null)

theorem Switch.inRange_found {n : Nat} (hn : n < 2 ^ 31) {found : Option Nat}
    (hfound : ∀ i, found = some i → i < n) (v : Value) :
    InRange n v (if v.isNull then nullIndex else indexOr n found) := by
  by_cases hv : v = .null
  · have hnull : nullIndex.toInt = -1 := rfl
    subst hv
    simp [InRange, Value.isNull, hnull]
  · rw [if_neg (mt Value.isNull_iff.mp hv)]
    cases found with
    | none =>
      simp only [InRange, indexOr, toInt_caseIndex hn, hv, iff_false]
      omega
    | some i =>
      have hi := hfound i rfl
      simp only [InRange, indexOr, toInt_caseIndex (Nat.lt_trans hi hn), hv, iff_false]
      omega

theorem Switch.inRange_idxOf? {κ : Type} [BEq κ] {cases : List κ} (hn : cases.length < 2 ^ 31)
    (key : Option κ) (v : Value) :
    InRange cases.length v (if v.isNull then nullIndex else indexOr cases.length (key.bind (cases.idxOf? ·))) := by
  apply inRange_found hn
  intro i hi
  obtain ⟨k, -, hk⟩ := Option.bind_eq_some_iff.mp hi
  exact (List.findIdx?_eq_some_iff_getElem.mp hk).1

/-- The indexed look-up of a table is its scan, which answers among so many labels. -/
def Table.Faithful (t : Table) (n : Nat) : Prop := ∀ v, t.dispatch v = t.scan v ∧ Switch.InRange n v (t.scan v)

section Tables

variable {r : Registry} {labels : List Value}

theorem NumericTable.faithful {kind : NumericKind} {t : NumericTable} (h : ofLabels r kind labels = .ok t) :
    (Table.numeric t).Faithful labels.length := by
  obtain ⟨-, hb⟩ := built_of_ofLabels h
  have hlength : labels.length = t.cases.length := by simpa using congrArg List.length hb.keys_eq
  intro v
  refine ⟨hb.dispatch_eq_scan v, ?_⟩
  rw [hlength]
  exact Switch.inRange_idxOf? hb.count_lt (t.kind.key? v) v

theorem StringTable.faithful {hasher : String → Int32} {t : StringTable} (h : ofLabels r hasher labels = .ok t) :
    (Table.strings t).Faithful labels.length := by
  obtain ⟨-, hb⟩ := built_of_ofLabels h
  have hlength : labels.length = t.cases.length := by simpa using congrArg List.length hb.labels_eq
  intro v
  refine ⟨hb.dispatch_eq_scan v, ?_⟩
  rw [hlength]
  exact Switch.inRange_idxOf? hb.count_lt v.text? v

theorem EnumTable.faithful {c : ClassId} {t : EnumTable} (h : ofLabels r c labels = .ok t) :
    (Table.constants t).Faithful labels.length := by
  obtain ⟨constants, -, hb⟩ := built_of_ofLabels h
  intro v
  refine ⟨hb.dispatch_eq_scan v, ?_⟩
  rw [← hb.length_eq]
  have hrange := Switch.inRange_idxOf? hb.count_lt ((v.ordinalIn? t.cls).map some) v
  rwa [Option.bind_map] at hrange

end Tables

/-! ## Switches -/

namespace LazySite

/-- A site over a table starts on the scan and links to the dispatch, which agree. -/
theorem ofTable_steady {table : Table} {n : Nat} (htable : table.Faithful n) (param : Ty) (st : Store) :
    ∃ site t, (ofTable table param).exec st = (.ok site, t) ∧ site.sig = .unary param .int ∧
      ∀ r, site.Steady r (fun _ => True) (unaryAnswer table.scan) := by
  have hsame : table.dispatch = table.scan := funext fun v => (htable v).1
  unfold ofTable
  rw [hsame]
  refine ⟨_, _, rfl, rfl, fun r => ⟨rfl, fun _ _ _ => trivial, ?_, fun _ => ?_⟩⟩
  · exact answersBy_unary _ _ _ r
  · exact answersBy_unary _ _ _ r

/-- So does a site of a type switch, while what the switch keeps is in order. -/
theorem ofTypeSwitch_steady {switch : TypeSwitch} {labels : List Label} (hb : switch.Built labels) (target : Ty)
    (st : Store) :
    ∃ site t, (ofTypeSwitch target switch).exec st = (.ok site, t) ∧ site.sig = ⟨[target, .int], .int⟩ ∧
      t.run.memos = st.run.memos ∧
      ∀ r, site.Steady r (switch.InOrder r labels fun _ => True) (restartAnswer (TypeSwitch.scanLabels r labels)) := by
  obtain rfl := hb.labels_eq
  refine ⟨_, _, rfl, rfl, rfl, fun r => ⟨rfl, fun _ _ h => h, ?_, fun _ => ?_⟩⟩
  · exact answersBy_restartable fun v restart s hs => ⟨rfl, hs⟩
  · refine answersBy_restartable fun v restart s hs => ?_
    exact ⟨hb.dispatch_eq hs (fun _ _ _ => trivial) restart, hb.inOrder_dispatch hs v restart⟩

end LazySite

/-! ## Requests for switches -/

/-- The store with relinking set so, and the limit that is in force. -/
def Store.relinking (st : Store) (relink : Bool) : Store :=
  { st with settings := some { st.settings.getD st.environmentSettings with relink } }

/-- What a switch can be asked for with. -/
inductive SwitchRequest where
  | ints (sig : Signature) (labels : List Value)
  | floats (sig : Signature) (labels : List Value)
  | strings (hasher : String → Int32) (sig : Signature) (labels : List Value)
  | constants (sig : Signature) (labels : List Value)
  | types (sig : Signature) (labels : List Label)

namespace SwitchRequest

def site : SwitchRequest → Build CallSite
  | ints sig labels => CallSite.ofInts sig labels
  | floats sig labels => CallSite.ofFloats sig labels
  | strings hasher sig labels => CallSite.ofStrings hasher sig labels
  | constants sig labels => CallSite.ofConstants sig labels
  | types sig labels => CallSite.ofTypes sig labels

def labelCount : SwitchRequest → Nat
  | ints _ labels => labels.length
  | floats _ labels => labels.length
  | strings _ _ labels => labels.length
  | constants _ labels => labels.length
  | types _ labels => labels.length

/-- Whether the arguments are those of a call: one target, or a target and a restart
that is an int and not negative. -/
def Takes : SwitchRequest → List Value → Prop
  | types .., args => ∃ v n, args = [v, .int n] ∧ 0 ≤ n
  | _, args => ∃ v, args = [v]

/-- What a call may answer: nothing just when the arguments are not those of a call,
else an index for the target among the labels. -/
def Allows (q : SwitchRequest) (args : List Value) (answer : Option Value) : Prop :=
  (answer = none ↔ ¬ q.Takes args) ∧
    ∀ w, answer = some w → ∃ v i, args.head? = some v ∧ w = .int i ∧ Switch.InRange q.labelCount v i

end SwitchRequest

namespace CallSite

/-- The results of the calls, one after another. -/
def answers (site : CallSite) (calls : List (List Value)) : Run (List (Option Value)) :=
  calls.mapM fun args => (site.target.invoke args).attempt

/-- The site, called from this state on over whatever classes, answers by the function. -/
def AnswersFrom (site : CallSite) (s : RunState) (answer : Registry → List Value → Option Value) : Prop :=
  ∀ r, ∃ inOrder : RunState → Prop, inOrder s ∧ site.target.AnswersBy r inOrder (answer r)

theorem exec_answers {site : CallSite} {r : Registry} {inOrder : RunState → Prop} {s : RunState}
    {answer : List Value → Option Value} (h : site.target.AnswersBy r inOrder answer) (hs : inOrder s)
    (calls : List (List Value)) : ((site.answers calls).exec r s).1 = some (calls.map answer) := by
  unfold answers
  induction calls generalizing s with
  | nil => rfl
  | cons args calls ih =>
    obtain ⟨hanswer, horder⟩ := h args s hs
    rw [List.mapM_cons, Run.exec_bind_of_some (Run.exec_attempt _ r s), Run.exec_bind]
    have hrest := ih horder
    rcases hrun : (calls.mapM fun args => (site.target.invoke args).attempt).exec r
      ((site.target.invoke args).exec r s).2 with ⟨rest, s'⟩
    rw [hrun] at hrest
    cases hrest
    rw [hanswer]
    rfl

theorem exec_make (lazy : LazySite) (u : Store) :
    (do make lazy.sig (← lazy.toHandle) : Build CallSite).exec u =
      (.ok ⟨⟨lazy.sig, ⟨u.run.nextId, lazy.invoke⟩⟩⟩,
        { u with run := { u.run with nextId := u.run.nextId + 1 } }) := by
  simp only [LazySite.toHandle, make, checked, Build.exec_bind, Build.exec_handle, Build.exec_registry,
    Build.exec_ofExcept, if_true]

/-- A steady site answers by the function from a state in order on. -/
theorem answersFrom_of_steady {lazy : LazySite} {u : Store} {answer : Registry → List Value → Option Value}
    (h : ∀ r, ∃ inOrder : RunState → Prop,
      inOrder { u.run with nextId := u.run.nextId + 1 } ∧ lazy.Steady r inOrder (answer r)) :
    ∃ site t, (do make lazy.sig (← lazy.toHandle) : Build CallSite).exec u = (.ok site, t) ∧
      site.AnswersFrom t.run answer := by
  refine ⟨_, _, exec_make lazy u, fun r => ?_⟩
  obtain ⟨inOrder, hstart, steady⟩ := h r
  exact ⟨inOrder, hstart, fun args s hs => steady.invoke args hs⟩

/-! ## Sites over tables and type switches -/

variable {sig : Signature} {st t : Store} {site : CallSite}

/-- A site over a table answers by the scan. -/
theorem ofTable_ok {table : Table} {n : Nat} (htable : table.Faithful n) (param : Ty) (st : Store) :
    ∃ site t, (ofTable (.unary param .int) table param).exec st = (.ok site, t) ∧
      site.AnswersFrom t.run fun _ => unaryAnswer table.scan := by
  obtain ⟨lazy, u, hlazy, hsig, steady⟩ := LazySite.ofTable_steady htable param st
  rw [ofTable, Build.exec_bind, hlazy, ← hsig]
  exact answersFrom_of_steady fun r => ⟨_, trivial, steady r⟩

/-- A site of a type switch answers by the scan over the classes of the call. -/
theorem ofTypes_ok {labels : List Label} (hcount : labels.length < 2 ^ 31) {target : Ty}
    (htarget : target.isScalar = false) (st : Store) :
    ∃ site t, (ofTypes ⟨[target, .int], .int⟩ labels).exec st = (.ok site, t) ∧
      site.AnswersFrom t.run fun r => restartAnswer (TypeSwitch.scanLabels r labels) := by
  obtain ⟨switch, run, hswitch, hb, hempty⟩ := TypeSwitch.ofLabels_ok hcount st
  obtain ⟨lazy, u, hlazy, hsig, hmemos, steady⟩ := LazySite.ofTypeSwitch_steady hb target { st with run }
  simp only [ofTypes, restartTarget?, htarget, and_self, if_true, Bool.false_eq_true, if_false, ← hsig]
  rw [Build.exec_bind, hswitch]
  simp only
  rw [Build.exec_bind, hlazy]
  refine answersFrom_of_steady fun r => ⟨_, TypeSwitch.inOrder_of_empty ?_, steady r⟩
  intro cell hcell
  rw [hmemos, hempty cell hcell]

/-! ## What a request makes -/

theorem eq_unary_of_unaryParam? {param : Ty} (h : unaryParam? sig = some param) : sig = .unary param .int := by
  unfold unaryParam? at h
  split at h
  · next hparams =>
    obtain ⟨hret, hparam⟩ := Option.ite_none_right_eq_some.mp h
    cases sig
    cases hparams
    cases hparam
    cases hret
    rfl
  · cases h

theorem eq_of_restartTarget? {target : Ty} (h : restartTarget? sig = some target) :
    sig = ⟨[target, .int], .int⟩ := by
  unfold restartTarget? at h
  split at h
  · next hparams =>
    obtain ⟨⟨hrestart, hret⟩, htarget⟩ := Option.ite_none_right_eq_some.mp h
    cases sig
    cases hparams
    cases htarget
    cases hrestart
    cases hret
    rfl
  · cases h

/-- Over these classes the request makes a site of one table for so many labels. -/
def MakesTable (request : Build CallSite) (r : Registry) (n : Nat) : Prop :=
  ∃ table param, Table.Faithful table n ∧
    ∀ st, st.registry = r → request.exec st = (ofTable (.unary param .int) table param).exec st

theorem makesTable_ofNumbers {kinds : List NumericKind} {expected : String} {labels : List Value}
    (h : (ofNumbers kinds expected sig labels).exec st = (.ok site, t)) :
    MakesTable (ofNumbers kinds expected sig labels) st.registry labels.length := by
  cases hparam : unaryParam? sig with
  | none => simp [ofNumbers, mismatch, hparam, Build.exec_bind] at h
  | some param =>
    cases hkind : (NumericKind.ofTy? param).filter (· ∈ kinds) with
    | none => simp [ofNumbers, mismatch, hparam, hkind, Build.exec_bind] at h
    | some kind =>
      cases htable : NumericTable.ofLabels st.registry kind labels with
      | error e => simp [ofNumbers, hparam, hkind, htable, Build.exec_bind] at h
      | ok table =>
        refine ⟨.numeric table, param, NumericTable.faithful htable, ?_⟩
        intro st' hr
        rw [← eq_unary_of_unaryParam? hparam]
        simp [ofNumbers, hparam, hkind, hr, htable, Build.exec_bind]

theorem makesTable_ofStrings {hasher : String → Int32} {labels : List Value}
    (h : (ofStrings hasher sig labels).exec st = (.ok site, t)) :
    MakesTable (ofStrings hasher sig labels) st.registry labels.length := by
  by_cases hparam : unaryParam? sig = some .string
  · cases htable : StringTable.ofLabels st.registry hasher labels with
    | error e => simp [ofStrings, hparam, htable, Build.exec_bind] at h
    | ok table =>
      refine ⟨.strings table, .string, StringTable.faithful htable, ?_⟩
      intro st' hr
      rw [← eq_unary_of_unaryParam? hparam]
      simp [ofStrings, hparam, hr, htable, Build.exec_bind]
  · simp [ofStrings, mismatch, hparam, Build.exec_bind] at h

theorem makesTable_ofConstants {labels : List Value} (h : (ofConstants sig labels).exec st = (.ok site, t)) :
    MakesTable (ofConstants sig labels) st.registry labels.length := by
  cases henum : (unaryParam? sig).bind fun param => (enumClass? st.registry param).map (param, ·) with
  | none => simp [ofConstants, mismatch, henum, Build.exec_bind] at h
  | some e =>
    obtain ⟨param, c⟩ := e
    cases htable : EnumTable.ofLabels st.registry c labels with
    | error e => simp [ofConstants, henum, htable, Build.exec_bind] at h
    | ok table =>
      refine ⟨.constants table, param, EnumTable.faithful htable, ?_⟩
      intro st' hr
      obtain ⟨param', hparam, hclass⟩ := Option.bind_eq_some_iff.mp henum
      obtain ⟨c', -, heq⟩ := Option.map_eq_some_iff.mp hclass
      cases heq
      rw [← eq_unary_of_unaryParam? hparam]
      simp [ofConstants, hr, henum, htable, Build.exec_bind]

/-- A type switch that is made has a reference for target and not too many labels. -/
theorem ofTypes_inv {labels : List Label} (h : (ofTypes sig labels).exec st = (.ok site, t)) :
    ∃ target, sig = ⟨[target, .int], .int⟩ ∧ target.isScalar = false ∧ labels.length < 2 ^ 31 := by
  cases htarget : restartTarget? sig with
  | none => simp [ofTypes, mismatch, htarget, Build.exec_bind] at h
  | some target =>
    cases hscalar : target.isScalar with
    | true => simp [ofTypes, mismatch, htarget, hscalar, Build.exec_bind] at h
    | false =>
      refine ⟨target, eq_of_restartTarget? htarget, hscalar, ?_⟩
      simp only [ofTypes, htarget, hscalar, Bool.false_eq_true, if_false] at h
      obtain ⟨switch, _, hswitch, -⟩ := Build.exec_bind_ok h
      exact TypeSwitch.count_lt_of_ofLabels hswitch

end CallSite

namespace SwitchRequest

/-! ## What a request serves -/

/-- Over these classes the request makes, whatever the settings and whatever else was
made, a site that answers by one and the same function, as its calls may be answered. -/
def Serves (q : SwitchRequest) (r₀ : Registry) : Prop :=
  ∃ answer : Registry → List Value → Option Value, (∀ r args, q.Allows args (answer r args)) ∧
    ∀ st, st.registry = r₀ → ∃ site t, q.site.exec st = (.ok site, t) ∧ site.AnswersFrom t.run answer

variable {q : SwitchRequest} {r : Registry} {st t : Store} {site : CallSite}

theorem serves_of_makesTable (h : CallSite.MakesTable q.site r q.labelCount)
    (htakes : ∀ args, q.Takes args ↔ ∃ v, args = [v]) : q.Serves r := by
  obtain ⟨table, param, htable, hmakes⟩ := h
  refine ⟨fun _ => unaryAnswer table.scan, fun _ args => ?_, fun st hst => ?_⟩
  · rw [Allows, htakes]
    rcases args with _ | ⟨v, _ | ⟨w, rest⟩⟩
    · simp [unaryAnswer]
    · simpa [unaryAnswer] using (htable v).2
    · simp [unaryAnswer]
  · rw [hmakes st hst]
    exact CallSite.ofTable_ok htable param st

theorem takes_of_restartArgs? (sig : Signature) (labels : List Label) {args : List Value} {v : Value}
    {restart : Nat} (h : LazySite.restartArgs? args = some (v, restart)) :
    (types sig labels).Takes args ∧ args.head? = some v := by
  unfold LazySite.restartArgs? at h
  split at h
  · next n =>
    obtain ⟨hn, heq⟩ := Option.ite_none_right_eq_some.mp h
    cases heq
    exact ⟨⟨v, n, rfl, hn⟩, rfl⟩
  · cases h

theorem not_takes_of_restartArgs? {sig : Signature} {labels : List Label} {args : List Value}
    (h : LazySite.restartArgs? args = none) : ¬ (types sig labels).Takes args := by
  rintro ⟨v, n, rfl, hn⟩
  simp [LazySite.restartArgs?, hn] at h

theorem allows_restartAnswer {labels : List Label} (hcount : labels.length < 2 ^ 31) (sig : Signature)
    (r : Registry) (args : List Value) :
    (types sig labels).Allows args (restartAnswer (TypeSwitch.scanLabels r labels) args) := by
  unfold Allows restartAnswer
  cases hargs : LazySite.restartArgs? args with
  | none => simp [not_takes_of_restartArgs? hargs]
  | some e =>
    obtain ⟨v, restart⟩ := e
    obtain ⟨htakes, hhead⟩ := takes_of_restartArgs? sig labels hargs
    have hrange : Switch.InRange labels.length v (TypeSwitch.scanLabels r labels v restart) := by
      refine Switch.inRange_found hcount (fun i hi => ?_) v
      obtain ⟨-, ⟨label, hlabel, -⟩, -⟩ := Switch.of_firstFrom_some hi
      exact (List.getElem?_eq_some_iff.mp hlabel).1
    refine ⟨by simp [htakes], ?_⟩
    rintro _ ⟨⟩
    exact ⟨v, _, hhead, rfl, hrange⟩

theorem serves_of_made (h : q.site.exec st = (.ok site, t)) : q.Serves st.registry := by
  cases q with
  | ints sig labels => exact serves_of_makesTable (CallSite.makesTable_ofNumbers h) fun _ => Iff.rfl
  | floats sig labels => exact serves_of_makesTable (CallSite.makesTable_ofNumbers h) fun _ => Iff.rfl
  | strings hasher sig labels => exact serves_of_makesTable (CallSite.makesTable_ofStrings h) fun _ => Iff.rfl
  | constants sig labels => exact serves_of_makesTable (CallSite.makesTable_ofConstants h) fun _ => Iff.rfl
  | types sig labels =>
    obtain ⟨target, rfl, htarget, hcount⟩ := CallSite.ofTypes_inv h
    exact ⟨_, fun r args => allows_restartAnswer hcount _ r args,
      fun st _ => CallSite.ofTypes_ok hcount htarget st⟩

/-! ## The law -/

/-- Whether sites relink or not makes no difference that a call can tell. A request that
is granted under the one setting is granted under the other, and the two sites answer
any calls alike, one after another: nothing just to arguments that are not those of a
call, else an index among the labels that is -1 for null alone. -/
theorem relinking_is_not_seen {b : Bool} (h : q.site.exec (st.relinking b) = (.ok site, t)) (b' : Bool) :
    ∃ site' t', q.site.exec (st.relinking b') = (.ok site', t') ∧
      ∀ r calls, ∃ results, ((site.answers calls).exec r t.run).1 = some results ∧
        ((site'.answers calls).exec r t'.run).1 = some results ∧ List.Forall₂ q.Allows calls results := by
  obtain ⟨answer, hallows, hmakes⟩ := serves_of_made h
  obtain ⟨made, u, hmade, hanswers⟩ := hmakes (st.relinking b) rfl
  rw [h] at hmade
  cases hmade
  obtain ⟨site', t', hmade', hanswers'⟩ := hmakes (st.relinking b') rfl
  refine ⟨site', t', hmade', fun r calls => ⟨calls.map (answer r), ?_, ?_, ?_⟩⟩
  · obtain ⟨inOrder, hstart, hsite⟩ := hanswers r
    exact CallSite.exec_answers hsite hstart calls
  · obtain ⟨inOrder, hstart, hsite⟩ := hanswers' r
    exact CallSite.exec_answers hsite hstart calls
  · rw [List.forall₂_map_right_iff, List.forall₂_same]
    exact fun args _ => hallows r args

/-- The law on a type switch that keeps its answers, called with a string, with null,
with a restart below zero, without a restart and with the string again. -/
theorem a_switch_on_two_classes_answers_alike :
    let q := types ⟨[.ref .object, .int], .int⟩ [.cls .number, .cls .string]
    let calls : List (List Value) :=
      [[.str "a", .int 0], [.null, .int 0], [.str "a", .int (-1)], [.str "a"], [.str "a", .int 0]]
    ∃ site t site' t', q.site.exec ((Store.initial []).relinking true) = (.ok site, t) ∧
      q.site.exec ((Store.initial []).relinking false) = (.ok site', t') ∧
      ∃ results, ((site.answers calls).exec .initial t.run).1 = some results ∧
        ((site'.answers calls).exec .initial t'.run).1 = some results ∧ List.Forall₂ q.Allows calls results := by
  intro q calls
  obtain ⟨site, t, hmade⟩ : ∃ site t, q.site.exec ((Store.initial []).relinking true) = (.ok site, t) :=
    ⟨_, _, rfl⟩
  obtain ⟨site', t', hmade', hanswers⟩ := relinking_is_not_seen hmade false
  exact ⟨site, t, site', t', hmade, hmade', hanswers .initial calls⟩

end SwitchRequest

end PatternDispatch

-- Counted calls. A handle that counts leaves its name behind each time it is invoked,
-- so the names of a run tell which handles were invoked, how often and in which order.
import PatternDispatch.Handle
import PatternDispatch.Proofs.Running

namespace PatternDispatch

variable {α β : Type} {s t u : RunState} {names : List String} {name : Handle → String} {r : Registry} {v : Value}

/-! ## What was counted -/

/-- From the first state to the second one just these calls were counted, in this order. -/
def RunState.Counts (s : RunState) (names : List String) (t : RunState) : Prop :=
  t.calls = names.reverse ++ s.calls

namespace RunState

theorem Counts.refl (s : RunState) : s.Counts [] s := rfl

theorem Counts.trans {more : List String} (hst : s.Counts names t) (htu : t.Counts more u) :
    s.Counts (names ++ more) u := by
  unfold Counts at *
  simp [htu, hst]

end RunState

/-! ## Runs that count nothing -/

/-- The run counts no calls, whether it matches or not. -/
def Run.Silent (x : Run α) : Prop := ∀ (r : Registry) (s : RunState), s.Counts [] (x.exec r s).2

namespace Run

variable {x : Run α} {f : α → Run β}

theorem silent_pure (a : α) : (pure a : Run α).Silent := fun _ s => .refl s

theorem silent_noMatch : (noMatch : Run α).Silent := fun _ s => .refl s

theorem silent_ofOption (a : Option α) : (ofOption a).Silent := by
  intro r s
  rw [exec_ofOption]
  exact .refl s

theorem silent_freshId : freshId.Silent := fun _ _ => rfl

/-- What counts nothing after a run leaves the names as they are. -/
theorem counts_bind (hx : s.Counts names (x.exec r s).2) (hf : ∀ a, (f a).Silent) :
    s.Counts names ((x >>= f).exec r s).2 := by
  rcases hexec : x.exec r s with ⟨_ | a, t⟩ <;> rw [hexec] at hx
  · rwa [exec_bind_of_none hexec]
  · rw [exec_bind_of_some hexec]
    simpa using hx.trans (hf a r t)

theorem Silent.bind (hx : x.Silent) (hf : ∀ a, (f a).Silent) : (x >>= f).Silent :=
  fun r s => counts_bind (hx r s) hf

end Run

theorem Body.silent_unary (id : Nat) {f : Value → Run Value} (hf : ∀ v, (f v).Silent) (args : List Value) :
    ((Body.unary id f).run args).Silent := by
  match args with
  | [v] => exact hf v
  | [] | _ :: _ :: _ => exact Run.silent_noMatch

/-! ## Handles that count -/

namespace Handle

variable {h : Handle} {hs ran : List Handle} {given : Option (List Value)}

/-- Each time it is invoked, the handle counts one call under the name and no other. -/
def CountsAs (h : Handle) (name : String) : Prop :=
  ∀ (args : List Value) (r : Registry) (s : RunState), s.Counts [name] ((h.invoke args).exec r s).2

/-- A counter around a handle that counts nothing on its own. -/
theorem countsAs_counted (sig : Signature) (id : Nat) (name : String) (hsilent : ∀ args, (h.invoke args).Silent) :
    (Handle.mk sig (.counted id name h)).CountsAs name := by
  intro args r s
  have hrest := hsilent args r { s with calls := name :: s.calls }
  unfold invoke Body.counted
  rw [Run.exec_bind_of_some (Run.exec_record name r s)]
  exact hrest

/-! ## One handle after another -/

/-- The handles are invoked on the value in their order, and the first one that does not
match is the last one that runs: `ran` are those that ran, and `given` is what they gave
if all of them matched. -/
inductive InTurn (r : Registry) (v : Value) :
    List Handle → RunState → List Handle → Option (List Value) → RunState → Prop
  | done {s : RunState} : InTurn r v [] s [] (some []) s
  | noMatch {h : Handle} {hs : List Handle} {s t : RunState} :
    (h.invoke [v]).exec r s = (none, t) → InTurn r v (h :: hs) s [h] none t
  | next {h : Handle} {hs ran : List Handle} {s t u : RunState} {w : Value} {given : Option (List Value)} :
    (h.invoke [v]).exec r s = (some w, t) → InTurn r v hs t ran given u →
    InTurn r v (h :: hs) s (h :: ran) (given.map (w :: ·)) u

/-- Invoking all handles on a value invokes them in turn. -/
theorem exists_inTurn (r : Registry) (v : Value) (hs : List Handle) (s : RunState) :
    ∃ ran given t, InTurn r v hs s ran given t ∧ Run.exec (hs.mapM (·.invoke [v])) r s = (given, t) := by
  induction hs generalizing s with
  | nil => exact ⟨[], some [], s, .done, rfl⟩
  | cons h hs ih =>
    rw [List.mapM_cons]
    rcases hfirst : (h.invoke [v]).exec r s with ⟨_ | w, t⟩
    · exact ⟨[h], none, t, .noMatch hfirst, Run.exec_bind_of_none hfirst⟩
    · obtain ⟨ran, given, u, hturn, hrest⟩ := ih t
      refine ⟨h :: ran, given.map (w :: ·), u, .next hfirst hturn, ?_⟩
      rw [Run.exec_bind_of_some hfirst, Run.exec_bind_pure _ hrest]

theorem InTurn.prefix_all (h : InTurn r v hs s ran given t) : ran <+: hs := by
  induction h with
  | done => exact List.prefix_rfl
  | noMatch => simp
  | next _ _ ih => simpa using ih

/-- All of them ran if all of them matched. -/
theorem InTurn.eq_all (h : InTurn r v hs s ran given t) (hgiven : given.isSome) : ran = hs := by
  induction h with
  | done => rfl
  | noMatch => simp at hgiven
  | next _ _ ih => simp [ih (by simpa using hgiven)]

theorem InTurn.counts (h : InTurn r v hs s ran given t) (hcount : ∀ h ∈ hs, h.CountsAs (name h)) :
    s.Counts (ran.map name) t := by
  induction h with
  | done => exact .refl _
  | @noMatch h hs s t hexec =>
    have hone := hcount h List.mem_cons_self [v] r s
    rwa [hexec] at hone
  | @next h hs ran s t u w given hexec _ ih =>
    have hone := hcount h List.mem_cons_self [v] r s
    rw [hexec] at hone
    exact hone.trans (ih fun h' hmem => hcount h' (List.mem_cons_of_mem _ hmem))

end Handle

end PatternDispatch

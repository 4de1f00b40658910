-- The law of restarts. A caller whose guard refuses a case asks again from the next
-- one on. So all cases of its target come up, each once and in order, and after them
-- that none is left; whatever its guards do in between.
import PatternDispatch.Proofs.Switch.Restart
import PatternDispatch.Proofs.Switch.Types

namespace PatternDispatch

/-! ## Going through the cases -/

namespace Switch

variable {α : Type} {p : α → Bool} {xs : List α} {restart i : Nat} {ask : Nat → Run Int32}
  {meanwhile : Nat → RunState → RunState} {inOrder : RunState → Prop} {r : Registry} {s : RunState}
  {answers : List Int}

end Switch

/-! ## Type switches -/

namespace TypeSwitch

variable {t : TypeSwitch} {labels : List Label} {r : Registry} {s u : RunState} {v : Value}
  {classes : ClassId → Prop}

/-- What can happen between two questions to the switch: others ask it too, and the kept
answers stay as they are otherwise. -/
inductive Meanwhile (t : TypeSwitch) (r : Registry) : RunState → RunState → Prop
  | nothing {s : RunState} : Meanwhile t r s s
  | dispatches {s u : RunState} (v : Value) (restart : Nat) :
    Meanwhile t r s u → Meanwhile t r s ((t.dispatch v restart).exec r u).2
  | others {s u u' : RunState} :
    Meanwhile t r s u → (∀ cell, t.memo = some cell → u'.memos[cell]? = u.memos[cell]?) → Meanwhile t r s u'

theorem Meanwhile.inOrder (h : t.Meanwhile r s u) (ht : t.Built labels) (hs : t.InOrder r labels classes s) :
    t.InOrder r labels classes u := by
  induction h with
  | nothing => exact hs
  | dispatches v restart _ ih => exact ht.inOrder_dispatch ih v restart
  | others _ hmemos ih => exact ih.of_memos_eq hmemos

end TypeSwitch

/-! ## Switches on enumerations -/

namespace EnumSwitch

variable {r : Registry} {c : ClassId} {labels : List Label} {constants : List String} {t : EnumSwitch} {o : UInt32}

end EnumSwitch

/-! ## The law -/

end PatternDispatch

-- Call sites of switches: they scan until the first call, and dispatch after it.
import PatternDispatch.Site.Lazy
import PatternDispatch.Switch.Restart
import PatternDispatch.Switch.Table
import PatternDispatch.Switch.Types

namespace PatternDispatch.LazySite

/-- A site from a target of type `param` to the case index. -/
def ofTable (t : Table) (param : Ty) : Build LazySite := do
  let generic ← Build.unary param .int fun v => return .int (t.scan v)
  let linked ← Build.unary param .int fun v => return .int (t.dispatch v)
  make generic ⟨none, fun _ => linked⟩

/-- The target and the restart of a call, which is an int and not negative. -/
def restartArgs? : List Value → Option (Value × Nat)
  | [target, .int restart] => if 0 ≤ restart then some (target, restart.toNatClampNeg) else none
  | _ => none

/-- A handle from the target and the restart to the case index. -/
def restartable (target : Ty) (answer : Value → Nat → Run Int32) : Build Handle :=
  Build.handle ⟨[target, .int], .int⟩ (⟨·, fun args => do
    let (v, restart) ← Run.ofOption (restartArgs? args)
    return .int (← answer v restart)⟩)

/-- A restartable site on two ways to answer. -/
def ofRestartable (target : Ty) (scan dispatch : Value → Nat → Run Int32) : Build LazySite := do
  let generic ← restartable target scan
  let linked ← restartable target dispatch
  make generic ⟨none, fun _ => linked⟩

def ofEnumSwitch (target : Ty) (t : EnumSwitch) : Build LazySite :=
  ofRestartable target (fun v i => return t.scan v i) (fun v i => return t.dispatch v i)

def ofTypeSwitch (target : Ty) (t : TypeSwitch) : Build LazySite := ofRestartable target t.scan t.dispatch

end PatternDispatch.LazySite

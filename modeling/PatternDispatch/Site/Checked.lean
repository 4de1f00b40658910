-- Checked call sites. Each request names what it needs and the signature it was
-- compiled against; a disagreement fails when the site is made, never when it
-- runs.
import PatternDispatch.Pattern.Basic
import PatternDispatch.Carrier.Typed
import PatternDispatch.Site.Switching

namespace PatternDispatch

/-- A handle that has exactly the signature of the request. -/
structure CallSite where
  target : Handle

namespace CallSite

/-- The site of a handle, which has to have the signature. -/
def checked (r : Registry) (sig : Signature) (target : Handle) : Except BuildError CallSite :=
  if target.sig = sig then .ok ⟨target⟩
  else .error (.contractMismatch (sig.text r) (target.sig.text r))

def make (sig : Signature) (target : Handle) : Build CallSite := do
  Build.ofExcept (checked (← Build.registry) sig target)

/-- A signature of another form than expected. -/
def mismatch {α : Type} (sig : Signature) (expected : String) : Build α := do
  throw (.contractMismatch (sig.text (← Build.registry)) expected)

/-! ## Carriers and patterns -/

def ofCarrier (sig : Signature) (ts : List Ty) : Build CallSite := do
  make sig (← TypedCarrier.ofTypes ts).constructor

def ofCarrierComponent (sig : Signature) (ts : List Ty) (i : Nat) : Build CallSite := do
  make sig (← TypedCarrier.componentOf ts i)

def ofMatchAttempt (sig : Signature) (p : Pattern) : Build CallSite := make sig p.tryMatch

def ofComponent (sig : Signature) (p : Pattern) (i : Nat) : Build CallSite := do
  make sig (← Build.ofExcept (p.component i))

/-! ## Switches -/

/-- The parameter of a signature from one parameter to int. -/
def unaryParam? (sig : Signature) : Option Ty :=
  match sig.params with
  | [param] => if sig.ret = .int then some param else none
  | _ => none

/-- The target of a signature from a target and an int to int. -/
def restartTarget? (sig : Signature) : Option Ty :=
  match sig.params with
  | [target, restart] => if restart = .int ∧ sig.ret = .int then some target else none
  | _ => none

def enumClass? (r : Registry) (t : Ty) : Option ClassId :=
  t.class?.filter fun c => (r.info c).constants?.isSome

def ofTable (sig : Signature) (t : Table) (param : Ty) : Build CallSite := do
  make sig (← (← LazySite.ofTable t param).toHandle)

/-- A numeric switch of one of the kinds. -/
def ofNumbers (kinds : List NumericKind) (expected : String) (sig : Signature) (labels : List Value) :
    Build CallSite := do
  match unaryParam? sig with
  | none => mismatch sig expected
  | some param =>
    match (NumericKind.ofTy? param).filter (· ∈ kinds) with
    | none => mismatch sig expected
    | some kind =>
      let t ← Build.ofExcept (NumericTable.ofLabels (← Build.registry) kind labels)
      ofTable sig (.numeric t) param

def ofInts : Signature → List Value → Build CallSite := ofNumbers [.int, .long] "(int | long) -> int"

/-- A switch on floating numbers, by bits. -/
def ofFloats : Signature → List Value → Build CallSite := ofNumbers [.float, .double] "(float | double) -> int"

/-- A switch on strings, ordered by the hasher. -/
def ofStrings (hasher : String → Int32) (sig : Signature) (labels : List Value) : Build CallSite := do
  if unaryParam? sig = some .string then
    let t ← Build.ofExcept (StringTable.ofLabels (← Build.registry) hasher labels)
    ofTable sig (.strings t) .string
  else mismatch sig "(String) -> int"

def ofConstants (sig : Signature) (labels : List Value) : Build CallSite := do
  let r ← Build.registry
  match (unaryParam? sig).bind fun param => (enumClass? r param).map (param, ·) with
  | none => mismatch sig "(enum) -> int"
  | some (param, c) =>
    let t ← Build.ofExcept (EnumTable.ofLabels r c labels)
    ofTable sig (.constants t) param

def ofEnumLabels (sig : Signature) (labels : List Label) : Build CallSite := do
  let r ← Build.registry
  match (restartTarget? sig).bind fun target => (enumClass? r target).map (target, ·) with
  | none => mismatch sig "(enum, int) -> int"
  | some (target, c) =>
    let t ← Build.ofExcept (EnumSwitch.ofLabels r c labels)
    make sig (← (← LazySite.ofEnumSwitch target t).toHandle)

/-- A type switch; the target is a reference. -/
def ofTypes (sig : Signature) (labels : List Label) : Build CallSite := do
  match restartTarget? sig with
  | none => mismatch sig "(reference, int) -> int"
  | some target =>
    if target.isScalar then mismatch sig "(reference, int) -> int"
    else
      let t ← TypeSwitch.ofLabels labels
      make sig (← (← LazySite.ofTypeSwitch target t).toHandle)

end CallSite

end PatternDispatch

-- Switches on the constants of an enumeration that can be restarted after a
-- case. A label is a constant name or the enumeration itself, and may repeat.
import PatternDispatch.Switch.Constants
import PatternDispatch.Switch.Label

namespace PatternDispatch

inductive EnumCase where
  | constant (ordinal : UInt32)
  /-- A name that the enumeration lacks. -/
  | unresolved
  /-- The enumeration itself: every constant. -/
  | any
deriving DecidableEq

namespace EnumCase

def accepts : EnumCase → UInt32 → Bool
  | constant o, ordinal => o == ordinal
  | unresolved, _ => false
  | any, _ => true

def describe : EnumCase → String
  | constant o => "Constant(" ++ toString o.toNat ++ ")"
  | unresolved => "Unresolved"
  | any => "Any"

end EnumCase

structure EnumSwitch where
  cls : ClassId
  cases : List EnumCase
  /-- For each declared constant the case index from the start. -/
  first : Array Int32

namespace EnumSwitch

def caseOf (r : Registry) (c : ClassId) (constants : List String) (label : Label) (i : Nat) :
    Except BuildError EnumCase :=
  let refuse := BuildError.invalidLabels ("label " ++ label.print r ++ " at position " ++ toString i ++
    " is not a constant name or " ++ r.name c ++ ".class")
  match label with
  | .text s =>
    match ClassInfo.ordinal? constants s with
    | some o => .ok (.constant o)
    | none => .ok .unresolved
  | .cls d => if d = c then .ok .any else .error refuse
  | .number _ => .error refuse

/-- The case index of the constant with ordinal `i`, from the start. -/
def firstOf (cases : List EnumCase) (i : Nat) : Int32 :=
  Switch.indexOr cases.length
    (if i < UInt32.size then cases.findIdx? (·.accepts i.toUInt32) else none)

def ofLabels (r : Registry) (c : ClassId) (labels : List Label) : Except BuildError EnumSwitch := do
  Switch.checkCount labels.length
  let constants ← r.enumConstants c
  let cases ← labels.zipIdx.mapM fun (label, i) => caseOf r c constants label i
  return ⟨c, cases, ((List.range constants.length).map (firstOf cases)).toArray⟩

def labelCount (t : EnumSwitch) : Nat := t.cases.length

def miss (t : EnumSwitch) : Int32 := Switch.caseIndex t.labelCount

/-- The first case at or after `restart` that matches. -/
def scan (t : EnumSwitch) (v : Value) (restart : Nat) : Int32 :=
  if v.isNull then Switch.nullIndex
  else
    Switch.indexOr t.labelCount
      ((v.ordinalIn? t.cls).bind fun o => Switch.firstFrom (·.accepts o) t.cases restart)

/-- As `scan`; from the start the row of the constants answers. -/
def dispatch (t : EnumSwitch) (v : Value) (restart : Nat) : Int32 :=
  if restart ≠ 0 ∨ v.isNull then t.scan v restart
  else ((v.ordinalIn? t.cls).bind (t.first[·.toNat]?)).getD t.miss

def describe (r : Registry) (t : EnumSwitch) : String :=
  "EnumSwitch \x7b class: " ++ Text.quoted (r.name t.cls) ++ ", cases: [" ++
    String.intercalate ", " (t.cases.map EnumCase.describe) ++ "], .. \x7d"

end EnumSwitch

end PatternDispatch

-- Switches on the constants of an enumeration, by name. A row over all declared
-- constants holds the case index of each. A name that the enumeration lacks is
-- allowed and never matches.
import PatternDispatch.Switch.Names

namespace PatternDispatch

structure EnumTable where
  cls : ClassId
  /-- The ordinal of each label in case order. -/
  cases : List (Option UInt32)
  /-- The case index of each declared constant. -/
  byOrdinal : Array Int32

def Registry.enumConstants (r : Registry) (c : ClassId) : Except BuildError (List String) :=
  let info := r.info c
  match info.constants? with
  | some constants => .ok constants
  | none => .error (.invalidLabels (info.name ++ " is not an enumeration"))

def Value.ordinalIn? (c : ClassId) : Value → Option UInt32
  | .enum d i => if d = c then some i else none
  | _ => none

namespace EnumTable

/-- Write each case index into the place of its constant. -/
def fill (row : Array Int32) (cases : List (Option UInt32)) : Array Int32 :=
  cases.zipIdx.foldl (fun row (ordinal, i) =>
    match ordinal with
    | some o => row.setIfInBounds o.toNat (Switch.caseIndex i)
    | none => row) row

/-- The table of the names for the enumeration. -/
def ofLabels (r : Registry) (c : ClassId) (labels : List Value) : Except BuildError EnumTable := do
  Switch.checkCount labels.length
  let constants ← r.enumConstants c
  let names ← Switch.names r "a constant name" [] 0 labels
  let cases := names.map (ClassInfo.ordinal? constants)
  return ⟨c, cases, fill (Array.replicate constants.length (Switch.caseIndex labels.length)) cases⟩

def labelCount (t : EnumTable) : Nat := t.cases.length

def miss (t : EnumTable) : Int32 := Switch.caseIndex t.labelCount

def dispatch (t : EnumTable) (v : Value) : Int32 :=
  if v.isNull then Switch.nullIndex
  else ((v.ordinalIn? t.cls).bind (t.byOrdinal[·.toNat]?)).getD t.miss

def scan (t : EnumTable) (v : Value) : Int32 :=
  if v.isNull then Switch.nullIndex
  else Switch.indexOr t.labelCount ((v.ordinalIn? t.cls).bind fun o => t.cases.idxOf? (some o))

end EnumTable

end PatternDispatch

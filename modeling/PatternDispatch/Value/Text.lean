-- Values as text: the short form that messages show, and the long form that
-- also tells what sort of value it is.
import PatternDispatch.Text.Decimal
import PatternDispatch.Text.Quoted
import PatternDispatch.Text.Units
import PatternDispatch.Value

namespace PatternDispatch.Value

/-- What is shown of a hidden value: its class, and no address. -/
def hiddenText (r : Registry) (c : ClassId) : String := "Opaque(" ++ r.name c ++ "@ptr)"

/-- A unit that is no character is shown by its number. -/
def unitText (u : UInt16) : String :=
  match Text.unitChar? u with
  | some c => c.toString
  | none => "\\u" ++ Text.paddedHex 4 u.toNat

def boolText (b : Bool) : String := if b then "true" else "false"

/-- A constant by name, and by ordinal if the class has no such constant. -/
def enumText (r : Registry) (c : ClassId) (ordinal : UInt32) : String :=
  let info := r.info c
  match info.constants?.bind (·[ordinal.toNat]?) with
  | some name => info.name ++ "." ++ name
  | none => info.name ++ "#" ++ toString ordinal.toNat

mutual

/-- The short form. -/
def text (r : Registry) : Value → String
  | null => "null"
  | bool b => boolText b
  | byte n => toString n.toInt
  | short n => toString n.toInt
  | char u => unitText u
  | int n => toString n.toInt
  | long n => toString n.toInt
  | float bits => Text.float .single bits.toNat
  | double bits => Text.float .double bits.toNat
  | str s => s
  | enum c i => enumText r c i
  | object c fields => r.name c ++ "(" ++ String.intercalate ", " (texts r fields) ++ ")"
  | token c _ => hiddenText r c
  | packed c .. => hiddenText r c
  | listed .. => hiddenText r .carrier

def texts (r : Registry) : List Value → List String
  | [] => []
  | v :: vs => text r v :: texts r vs

end

mutual

/-- The long form. -/
def describe (r : Registry) : Value → String
  | null => "Null"
  | bool b => "Bool(" ++ boolText b ++ ")"
  | byte n => "Byte(" ++ toString n.toInt ++ ")"
  | short n => "Short(" ++ toString n.toInt ++ ")"
  | char u => "Char(0x" ++ Text.paddedHex 4 u.toNat ++ ")"
  | int n => "Int(" ++ toString n.toInt ++ ")"
  | long n => "Long(" ++ toString n.toInt ++ ")"
  | float bits => "Float(" ++ Text.floatLong .single bits.toNat ++ ")"
  | double bits => "Double(" ++ Text.floatLong .double bits.toNat ++ ")"
  | str s => "Str(" ++ Text.quoted s ++ ")"
  | enum c i => "Enum(" ++ r.name c ++ "#" ++ toString i.toNat ++ ")"
  | object c fields => r.name c ++ "[" ++ String.intercalate ", " (describes r fields) ++ "]"
  | token c _ => hiddenText r c
  | packed c .. => hiddenText r c
  | listed .. => hiddenText r .carrier

def describes (r : Registry) : List Value → List String
  | [] => []
  | v :: vs => describe r v :: describes r vs

end

/-- The name of the type of a value, for messages. -/
def typeName (r : Registry) (v : Value) : String :=
  match v.class?, v.scalar? with
  | none, _ => "null"
  | some _, some k => k.name
  | some c, none => r.name c

end PatternDispatch.Value

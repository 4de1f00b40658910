-- Runtime values. Scalars, strings, enumeration constants and objects are told
-- apart by what they hold; hidden values (tokens and carriers) by identity.
import PatternDispatch.Hierarchy

namespace PatternDispatch

/-- A runtime value. Floating numbers are kept as their bits. -/
inductive Value where
  | null
  | bool (b : Bool)
  | byte (n : Int8)
  | short (n : Int16)
  /-- One 16-bit unit of text. -/
  | char (unit : UInt16)
  | int (n : Int32)
  | long (n : Int64)
  | float (bits : UInt32)
  | double (bits : UInt64)
  | str (s : String)
  /-- A constant of an enumeration, by its place in the declaration. -/
  | enum (cls : ClassId) (ordinal : UInt32)
  /-- An instance of a user class, records included. -/
  | object (cls : ClassId) (fields : List Value)
  /-- A hidden value that holds nothing. -/
  | token (cls : ClassId) (id : Nat)
  /-- A carrier that keeps its parts apart by region. -/
  | packed (cls : ClassId) (id : Nat) (refs : List Value) (narrow : List Int32) (wide : List Int64)
  /-- A carrier that keeps its parts in one row. -/
  | listed (id : Nat) (parts : List Value)

namespace Value

def isNull : Value → Bool
  | null => true
  | _ => false

theorem isNull_iff {v : Value} : v.isNull ↔ v = null := by cases v <;> simp [isNull]

def scalar? : Value → Option Scalar
  | bool _ => some .boolean
  | byte _ => some .byte
  | short _ => some .short
  | char _ => some .char
  | int _ => some .int
  | long _ => some .long
  | float _ => some .float
  | double _ => some .double
  | _ => none

def hiddenClass? : Value → Option ClassId
  | token c _ => some c
  | packed c .. => some c
  | listed .. => some .carrier
  | _ => none

/-- The runtime class. A scalar has its boxed class, and null has none. -/
def class? : Value → Option ClassId
  | null => none
  | str _ => some .string
  | enum c _ => some c
  | object c _ => some c
  | token c _ => some c
  | packed c .. => some c
  | listed .. => some .carrier
  | v => v.scalar?.map Scalar.boxed

def text? : Value → Option String
  | str s => some s
  | _ => none

def int? : Value → Option Int32
  | int n => some n
  | _ => none

def enum? : Value → Option (ClassId × UInt32)
  | enum c i => some (c, i)
  | _ => none

def object? : Value → Option (ClassId × List Value)
  | object c fields => some (c, fields)
  | _ => none

/-- The number that a byte, short, char, int or long stands for. -/
def integral? : Value → Option Int
  | byte n => some n.toInt
  | short n => some n.toInt
  | char u => some u.toNat
  | int n => some n.toInt
  | long n => some n.toInt
  | _ => none

/-! ## Equality -/

mutual

/-- Equality of values: floating numbers by bits, objects field by field, hidden
values by identity. -/
def equals : Value → Value → Bool
  | null, null => true
  | bool a, bool b => a == b
  | byte a, byte b => a == b
  | short a, short b => a == b
  | char a, char b => a == b
  | int a, int b => a == b
  | long a, long b => a == b
  | float a, float b => a == b
  | double a, double b => a == b
  | str a, str b => a == b
  | enum c i, enum d j => c == d && i == j
  | object c xs, object d ys => c == d && equalsAll xs ys
  | token c i, token d j => c == d && i == j
  | packed c i .., packed d j .. => c == d && i == j
  | listed i _, listed j _ => i == j
  | _, _ => false

def equalsAll : List Value → List Value → Bool
  | [], [] => true
  | x :: xs, y :: ys => equals x y && equalsAll xs ys
  | _, _ => false

end

mutual

/-- The same answer for objects that `same` knows to be one, without a look at
their fields. -/
def equalsSharing (same : Value → Value → Bool) : Value → Value → Bool
  | object c xs, object d ys =>
    same (object c xs) (object d ys) || (c == d && equalsAllSharing same xs ys)
  | a, b => equals a b

def equalsAllSharing (same : Value → Value → Bool) : List Value → List Value → Bool
  | [], [] => true
  | x :: xs, y :: ys => equalsSharing same x y && equalsAllSharing same xs ys
  | _, _ => false

end

/-! ## Null in disguise -/

/-- The hidden value that stands for a null that matched. -/
def nullMark : Value := token .object 0

/-- Null becomes its mark. -/
def disguise : Value → Value
  | null => nullMark
  | v => v

/-- The mark becomes null again. -/
def reveal (v : Value) : Value := if v.equals nullMark then null else v

theorem disguise_ne_null (v : Value) : v.disguise ≠ null := by cases v <;> simp [disguise, nullMark]

end Value

end PatternDispatch

-- Scalar kinds, classes by identity and static types. A type is a scalar
-- kind or a reference to a class. Every scalar kind has a boxed class, which
-- is what its values look like in a reference slot.

namespace PatternDispatch

/-! ## Classes by identity -/

/-- A class is known by the number that it was issued. -/
structure ClassId where
  raw : UInt32
deriving DecidableEq

namespace ClassId

/-- The place of the class in the order of definition. -/
def index (c : ClassId) : Nat := c.raw.toNat

def ofIndex (n : Nat) : ClassId := ⟨n.toUInt32⟩

theorem index_ofIndex {n : Nat} (h : n < UInt32.size) : (ofIndex n).index = n :=
  UInt32.toNat_ofNat_of_lt h

theorem ofIndex_index (c : ClassId) : ofIndex c.index = c :=
  congrArg ClassId.mk (UInt32.ofNat_toNat)

theorem index_inj {a b : ClassId} (h : a.index = b.index) : a = b := by
  rw [← ofIndex_index a, h, ofIndex_index]

/-- The root of all classes. -/
def object : ClassId := ⟨0⟩
def string : ClassId := ⟨1⟩
/-- The common superclass of the boxed numbers. -/
def number : ClassId := ⟨2⟩
def boolean : ClassId := ⟨3⟩
def byte : ClassId := ⟨4⟩
def short : ClassId := ⟨5⟩
def character : ClassId := ⟨6⟩
def integer : ClassId := ⟨7⟩
def long : ClassId := ⟨8⟩
def float : ClassId := ⟨9⟩
def double : ClassId := ⟨10⟩
/-- The common superclass of all enumerations. -/
def enumeration : ClassId := ⟨11⟩
/-- The common superclass of all records. -/
def record : ClassId := ⟨12⟩
/-- The common superclass of all carrier classes. -/
def carrier : ClassId := ⟨13⟩

end ClassId

/-! ## Scalar kinds -/

inductive Scalar where
  | boolean | byte | short | char | int | long | float | double
deriving DecidableEq

namespace Scalar

def all : List Scalar := [.boolean, .byte, .short, .char, .int, .long, .float, .double]

def name : Scalar → String
  | .boolean => "boolean"
  | .byte => "byte"
  | .short => "short"
  | .char => "char"
  | .int => "int"
  | .long => "long"
  | .float => "float"
  | .double => "double"

/-- The name with a capital, as it stands in the long form of a type. -/
def title : Scalar → String
  | .boolean => "Boolean"
  | .byte => "Byte"
  | .short => "Short"
  | .char => "Char"
  | .int => "Int"
  | .long => "Long"
  | .float => "Float"
  | .double => "Double"

/-- The class of a value of this kind in a reference slot. -/
def boxed : Scalar → ClassId
  | .boolean => .boolean
  | .byte => .byte
  | .short => .short
  | .char => .character
  | .int => .integer
  | .long => .long
  | .float => .float
  | .double => .double

def ofBoxed? (c : ClassId) : Option Scalar := all.find? (·.boxed = c)

theorem ofBoxed?_boxed (k : Scalar) : ofBoxed? k.boxed = some k := by cases k <;> decide

/-- Kinds that are stored in 64 bits. -/
def isWide : Scalar → Bool
  | .long | .double => true
  | _ => false

def isFloating : Scalar → Bool
  | .float | .double => true
  | _ => false

end Scalar

/-! ## Static types -/

/-- A reference type stands for the instances of a class, of its subclasses,
and for null. -/
inductive Ty where
  | scalar (kind : Scalar)
  | ref (cls : ClassId)
deriving DecidableEq

namespace Ty

def int : Ty := .scalar .int
def long : Ty := .scalar .long
def object : Ty := .ref .object
def string : Ty := .ref .string
def carrier : Ty := .ref .carrier

def isScalar : Ty → Bool
  | .scalar _ => true
  | .ref _ => false

def scalar? : Ty → Option Scalar
  | .scalar k => some k
  | .ref _ => none

def class? : Ty → Option ClassId
  | .scalar _ => none
  | .ref c => some c

/-- The class of the type in a reference slot. -/
def boxed : Ty → ClassId
  | .scalar k => k.boxed
  | .ref c => c

end Ty

end PatternDispatch

-- The registry of classes. Classes are issued in the order of their first
-- definition, after fourteen well-known ones; a definition is idempotent by
-- name. Subclassing is a search along superclasses and interfaces.
import Std.Data.TreeMap
import PatternDispatch.Ty

namespace PatternDispatch

/-! ## What is known of a class -/

structure Modifiers where
  sealed : Bool
  abstract : Bool
  /-- Made by this library and not declared by the program. -/
  synthetic : Bool
deriving DecidableEq

namespace Modifiers

def none : Modifiers := ⟨false, false, false⟩

def union (a b : Modifiers) : Modifiers :=
  ⟨a.sealed || b.sealed, a.abstract || b.abstract, a.synthetic || b.synthetic⟩

/-- One bit for each modifier. -/
def bits (m : Modifiers) : Nat :=
  (if m.sealed then 1 else 0) + (if m.abstract then 2 else 0) + (if m.synthetic then 4 else 0)

/-- The modifiers whose bits are set in `n`; other bits are dropped. -/
def ofBits (n : Nat) : Modifiers := ⟨n.testBit 0, n.testBit 1, n.testBit 2⟩

end Modifiers

structure Component where
  name : String
  ty : Ty
deriving DecidableEq

inductive ClassKind where
  | plain
  | interface
  /-- The boxed form of a scalar kind. -/
  | boxed (kind : Scalar)
  /-- An enumeration, its constants in declaration order. -/
  | enum (constants : List String)
  /-- A record, its components in declaration order. -/
  | record (components : List Component)
deriving DecidableEq

def ClassKind.text : ClassKind → String
  | plain => "plain"
  | interface => "interface"
  | boxed k => "boxed " ++ k.name
  | enum _ => "enum"
  | record _ => "record"

structure ClassInfo where
  name : String
  superclass : Option ClassId
  interfaces : List ClassId
  kind : ClassKind
  modifiers : Modifiers
deriving DecidableEq

namespace ClassInfo

def parents (i : ClassInfo) : List ClassId := i.superclass.toList ++ i.interfaces

def constants? (i : ClassInfo) : Option (List String) :=
  match i.kind with
  | .enum constants => some constants
  | _ => none

def components? (i : ClassInfo) : Option (List Component) :=
  match i.kind with
  | .record components => some components
  | _ => none

/-- The ordinal of the first constant of that name. -/
def ordinal? (constants : List String) (name : String) : Option UInt32 :=
  (constants.idxOf? name).bind fun i => if i < UInt32.size then some i.toUInt32 else none

end ClassInfo

/-! ## Definitions -/

/-- A class still to be defined. -/
structure ClassDef where
  name : String
  superclass : ClassId
  interfaces : List ClassId
  kind : ClassKind
  modifiers : Modifiers

namespace ClassDef

/-- A plain class right below `Object`. -/
def named (name : String) : ClassDef := ⟨name, .object, [], .plain, .none⟩

def extending (d : ClassDef) (c : ClassId) : ClassDef := { d with superclass := c }

def implementing (d : ClassDef) (c : ClassId) : ClassDef :=
  { d with interfaces := d.interfaces ++ [c] }

def withModifiers (d : ClassDef) (m : Modifiers) : ClassDef :=
  { d with modifiers := d.modifiers.union m }

def asInterface (d : ClassDef) : ClassDef :=
  { d with kind := .interface }.withModifiers ⟨false, true, false⟩

def asEnum (d : ClassDef) (constants : List String) : ClassDef :=
  { d with superclass := .enumeration, kind := .enum constants }.withModifiers ⟨true, false, false⟩

def asRecord (d : ClassDef) (components : List Component) : ClassDef :=
  { d with superclass := .record, kind := .record components }.withModifiers ⟨true, false, false⟩

def info (d : ClassDef) : ClassInfo := ⟨d.name, some d.superclass, d.interfaces, d.kind, d.modifiers⟩

end ClassDef

/-! ## The registry -/

/-- The classes in the order of issue, and the class of each name. -/
structure Registry where
  classes : Array ClassInfo
  index : Std.TreeMap String ClassId

namespace Registry

def objectInfo : ClassInfo := ⟨"Object", none, [], .plain, .none⟩

/-- The fourteen classes that every registry starts with. -/
def wellKnown : List ClassInfo :=
  let plain (name : String) (m : Modifiers) : ClassInfo := ⟨name, some .object, [], .plain, m⟩
  let boxed (name : String) (sup : ClassId) (k : Scalar) : ClassInfo :=
    ⟨name, some sup, [], .boxed k, ⟨true, false, false⟩⟩
  [objectInfo,
    plain "String" ⟨true, false, false⟩,
    plain "Number" ⟨false, true, false⟩,
    boxed "Boolean" .object .boolean,
    boxed "Byte" .number .byte,
    boxed "Short" .number .short,
    boxed "Character" .object .char,
    boxed "Integer" .number .int,
    boxed "Long" .number .long,
    boxed "Float" .number .float,
    boxed "Double" .number .double,
    plain "Enum" ⟨false, true, false⟩,
    plain "Record" ⟨false, true, false⟩,
    plain "Carrier" ⟨false, true, false⟩]

def size (r : Registry) : Nat := r.classes.size

def issue (r : Registry) (info : ClassInfo) : Registry :=
  ⟨r.classes.push info, r.index.insert info.name (.ofIndex r.size)⟩

def empty : Registry := ⟨#[], ∅⟩

/-- The registry that holds the well-known classes only. -/
def initial : Registry := wellKnown.foldl issue empty

def lookup? (r : Registry) (name : String) : Option ClassId := r.index[name]?

/-- Define a class. A name that is taken gives the class that has it, and
changes nothing. -/
def define (r : Registry) (d : ClassDef) : ClassId × Registry :=
  match r.lookup? d.name with
  | some c => (c, r)
  | none => (.ofIndex r.size, r.issue d.info)

def info? (r : Registry) (c : ClassId) : Option ClassInfo := r.classes[c.index]?

/-- What is known of a class; a class that was not issued here is taken for
`Object`. -/
def info (r : Registry) (c : ClassId) : ClassInfo := (r.info? c).getD objectInfo

def name (r : Registry) (c : ClassId) : String := (r.info c).name

def ordinal? (r : Registry) (c : ClassId) (name : String) : Option UInt32 := do
  ClassInfo.ordinal? (← (r.info c).constants?) name

/-! ## Subclassing -/

/-- Superclass and interfaces of an issued class, and none of another one. -/
def parents (r : Registry) (c : ClassId) : List ClassId :=
  match r.info? c with
  | some i => i.parents
  | none => []

/-- Look for `sup` among the proper ancestors of the pending classes, the last
one found first. `none` stands for a search that did not end in time. -/
def search (r : Registry) (sup : ClassId) : Nat → List ClassId → Option Bool
  | _, [] => some false
  | 0, _ :: _ => none
  | fuel + 1, c :: pending =>
    if sup ∈ r.parents c then some true
    else search r sup fuel ((r.parents c).reverse ++ pending)

/-- The largest number of parents of one class. -/
def width (r : Registry) : Nat := r.classes.foldl (fun w i => max w i.parents.length) 0

/-- Steps that are enough when every parent was issued before its child. -/
def patience (r : Registry) : Nat := Nat.pow (r.width + 1) (r.size + 1)

/-- Whether `sub` is `sup`, or comes below it. Every class is below `Object`. -/
def isSubclass (r : Registry) (sub sup : ClassId) : Bool :=
  sub == sup || sup == .object || (r.search sup r.patience [sub]).getD false

end Registry

/-! ## Types over a registry -/

namespace Ty

/-- Whether a value of static type `source` may be stored in `target`. Nothing is
widened or boxed. -/
def assignable (r : Registry) : (target source : Ty) → Bool
  | .scalar a, .scalar b => a == b
  | .ref a, .ref b => r.isSubclass b a
  | _, _ => false

def text (r : Registry) : Ty → String
  | .scalar k => k.name
  | .ref c => r.name c

end Ty

namespace ClassId

def describe (r : Registry) (c : ClassId) : String :=
  "ClassId(" ++ toString c.index ++ ": " ++ r.name c ++ ")"

end ClassId

namespace Ty

def describe (r : Registry) : Ty → String
  | .scalar k => "Prim(" ++ k.title ++ ")"
  | .ref c => "Ref(" ++ c.describe r ++ ")"

end Ty

end PatternDispatch

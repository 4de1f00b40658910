-- Carriers in canonical order. A shape within the limit of the settings gets a
-- class of its own, once; a larger one keeps its parts in one row and is made
-- anew for every request.
import PatternDispatch.Store

namespace PatternDispatch.CanonicalCarrier

/-- The most slots of any carrier. -/
def maxSlots : UInt64 := 254

def signature (s : Shape) : Signature := ⟨s.canonicalTypes, .carrier⟩

/-! ## Parts kept apart by region -/

def long? : Value → Option Int64
  | .long n => some n
  | _ => none

/-- The arguments split by region. The scalar ones have to be in stored form. -/
def split? (s : Shape) (args : List Value) : Option (List Value × List Int32 × List Int64) := do
  if args.length = s.componentCount.toNat then
    let scalars := args.drop s.refs.toNat
    let narrow ← (scalars.take s.narrow.toNat).mapM Value.int?
    let wide ← (scalars.drop s.narrow.toNat).mapM long?
    return (args.take s.refs.toNat, narrow, wide)
  else none

def constructPacked (s : Shape) (c : ClassId) (args : List Value) : Run Value := do
  let (refs, narrow, wide) ← Run.ofOption (split? s args)
  return .packed c (← Run.freshId) refs narrow wide

/-- Part `i` of a region. -/
def readPacked (region : Region) (i : Nat) : Value → Option Value
  | .packed _ _ refs narrow wide =>
    match region with
    | .ref => refs[i]?
    | .narrow => narrow[i]?.map .int
    | .wide => wide[i]?.map .long
  | _ => none

/-! ## Parts in one row -/

def constructListed (s : Shape) (args : List Value) : Run Value := do
  if args.length = s.componentCount.toNat then return .listed (← Run.freshId) args
  else Run.noMatch

def readListed (i : Nat) : Value → Option Value
  | .listed _ parts => parts[i]?
  | _ => none

/-! ## Requests -/

/-- An accessor for every canonical position. -/
def accessorsOf (s : Shape) (read : UInt64 → Value → Option Value) : Build (List Handle) :=
  (List.range s.componentCount.toNat).mapM fun i =>
    let p := i.toUInt64
    Build.unary .carrier (s.regionAt p).storage fun v => Run.ofOption (read p v)

def listed (s : Shape) : Build CanonicalCarrier := do
  let constructor ← Build.handle (signature s) (⟨·, constructListed s⟩)
  let accessors ← accessorsOf s fun p => readListed p.toNat
  return ⟨s, none, constructor, accessors⟩

/-- The definition of the class of such carriers. -/
def classDef (s : Shape) : ClassDef :=
  ((ClassDef.named s.name).extending .carrier).withModifiers ⟨true, false, true⟩

/-- Whether a class can stand for carriers. A class that the program declared
under the name cannot. -/
def isCarrierClass (i : ClassInfo) : Bool := i.superclass == some .carrier && i.modifiers.synthetic

def packed (s : Shape) : Build CanonicalCarrier := do
  let c ← Build.define (classDef s)
  if isCarrierClass ((← Build.registry).info c) then
    let constructor ← Build.handle (signature s) (⟨·, constructPacked s c⟩)
    let accessors ← accessorsOf s fun p =>
      let region := s.regionAt p
      readPacked region (p - s.offset region).toNat
    return ⟨s, some c, constructor, accessors⟩
  else throw (.specializationFailed s.name "class name is already taken by a non-carrier class")

/-- The carrier of a shape. -/
def ofShape (s : Shape) : Build CanonicalCarrier := do
  if maxSlots < s.slotCount then
    throw (.arityExceeded s.name s.slotCount.toNat maxSlots.toNat)
  else if (← Build.settings).specializeLimit < s.slotCount.toNat then listed s
  else
    match List.lookup s (← get).shapes with
    | some c => return c
    | none =>
      let c ← packed s
      modify fun st => { st with shapes := (s, c) :: st.shapes }
      return c

end PatternDispatch.CanonicalCarrier

-- How scalars are stored in carriers: a narrow one as an int, a wide one as a
-- long, floating numbers by their bits. A reference is stored as it is.
import PatternDispatch.Value

namespace PatternDispatch.Ty

/-- What a value of the type is stored as; a value of another kind is refused. -/
def encode : Ty → Value → Option Value
  | .ref _, v => some v
  | .scalar .boolean, .bool b => some (.int (if b then 1 else 0))
  | .scalar .byte, .byte n => some (.int n.toInt32)
  | .scalar .short, .short n => some (.int n.toInt32)
  | .scalar .char, .char u => some (.int u.toUInt32.toInt32)
  | .scalar .int, .int n => some (.int n)
  | .scalar .long, .long n => some (.long n)
  | .scalar .float, .float bits => some (.int bits.toInt32)
  | .scalar .double, .double bits => some (.long bits.toInt64)
  | .scalar _, _ => none

/-- The value of the type that was stored so. -/
def decode : Ty → Value → Option Value
  | .ref _, v => some v
  | .scalar .boolean, .int n => some (.bool (n != 0))
  | .scalar .byte, .int n => some (.byte n.toInt8)
  | .scalar .short, .int n => some (.short n.toInt16)
  | .scalar .char, .int n => some (.char n.toUInt32.toUInt16)
  | .scalar .int, .int n => some (.int n)
  | .scalar .long, .long n => some (.long n)
  | .scalar .float, .int n => some (.float n.toUInt32)
  | .scalar .double, .long n => some (.double n.toUInt64)
  | .scalar _, _ => none

end PatternDispatch.Ty

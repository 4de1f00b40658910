-- Tables whose two look-ups need nothing but the target: an indexed dispatch,
-- and a scan in case order.
import PatternDispatch.Switch.Constants
import PatternDispatch.Switch.Numeric
import PatternDispatch.Switch.Strings

namespace PatternDispatch

inductive Table where
  | numeric (t : NumericTable)
  | strings (t : StringTable)
  | constants (t : EnumTable)

namespace Table

def labelCount : Table → Nat
  | numeric t => t.labelCount
  | strings t => t.labelCount
  | constants t => t.labelCount

def dispatch : Table → Value → Int32
  | numeric t => t.dispatch
  | strings t => t.dispatch
  | constants t => t.dispatch

def scan : Table → Value → Int32
  | numeric t => t.scan
  | strings t => t.scan
  | constants t => t.scan

end Table

end PatternDispatch

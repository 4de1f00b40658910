-- Text in 16-bit units, and the hash of a text: the polynomial in 31 over its
-- units, in 32-bit arithmetic that wraps.

namespace PatternDispatch.Text

/-- The one or two 16-bit units of a character: a character past the first
65536 is a high and a low surrogate. -/
def charUnits (c : Char) : List UInt16 :=
  let n := c.toNat
  if n < 0x10000 then [n.toUInt16]
  else [(0xD800 + (n - 0x10000) / 0x400).toUInt16, (0xDC00 + (n - 0x10000) % 0x400).toUInt16]

def units (s : String) : List UInt16 := s.toList.flatMap charUnits

/-- The character that is one unit on its own; a surrogate is none. -/
def unitChar? (u : UInt16) : Option Char :=
  if h : u.toNat.isValidChar then some (Char.ofNatAux u.toNat h) else none

/-- One step of the polynomial. -/
def hashStep (h : Int32) (u : UInt16) : Int32 := h * 31 + u.toUInt32.toInt32

def hash (s : String) : Int32 := (units s).foldl hashStep 0

end PatternDispatch.Text

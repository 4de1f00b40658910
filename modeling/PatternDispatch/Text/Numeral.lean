-- Reading numbers from digits: those of the settings, and those of scripts.

namespace PatternDispatch.Text

/-! ## Numbers in settings -/

/-- The number that decimal digits denote; there is at least one. -/
def digits? (cs : List Char) : Option Nat :=
  if cs ≠ [] ∧ cs.all Char.isDigit then
    some (cs.foldl (fun n c => 10 * n + (c.toNat - '0'.toNat)) 0)
  else none

/-- A plus sign may stand in front. -/
def natural? : List Char → Option Nat
  | '+' :: cs => digits? cs
  | cs => digits? cs

/-- A number that fits in 64 bits. -/
def word? (cs : List Char) : Option Nat := (natural? cs).filter (· < UInt64.size)

/-! ## Numbers in scripts -/

-- No setting has a sign or hexadecimal digits. A script writes 64-bit numbers the
-- first way, and the bits of floats the second way.

/-- A sign may stand in front. -/
def integer? : List Char → Option Int
  | '-' :: cs => (digits? cs).map fun n => -(n : Int)
  | cs => (natural? cs).map Int.ofNat

def hexDigit? (c : Char) : Option Nat :=
  if c.isDigit then some (c.toNat - '0'.toNat)
  else if 'a' ≤ c ∧ c ≤ 'f' then some (c.toNat - 'a'.toNat + 10)
  else none

/-- The number that exactly `width` hexadecimal digits denote. -/
def hex? (width : Nat) (cs : List Char) : Option Nat :=
  if cs.length = width then (cs.mapM hexDigit?).map (·.foldl (fun n d => 16 * n + d) 0) else none

end PatternDispatch.Text

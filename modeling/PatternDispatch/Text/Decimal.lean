-- Shortest decimals of binary floating numbers. A number is read from its
-- bits as a whole number times a power of two. Its decimal has the fewest
-- digits that still read back to the same bits, and is the nearest of those;
-- of two that are equally near it is the greater.

namespace PatternDispatch.Text

/-! ## Binary numbers -/

/-- Widths of the two fields below the sign bit. -/
structure FloatFormat where
  fractionBits : Nat
  exponentBits : Nat

namespace FloatFormat

def single : FloatFormat := ⟨23, 8⟩
def double : FloatFormat := ⟨52, 11⟩

end FloatFormat

/-- What the bits below the sign stand for: `finite m q` is `m * 2 ^ q`. -/
inductive Magnitude where
  | nan
  | infinite
  | finite (m : Nat) (q : Int)
deriving DecidableEq

namespace FloatFormat

def isNegative (f : FloatFormat) (bits : Nat) : Bool := bits.testBit (f.fractionBits + f.exponentBits)

def magnitude (f : FloatFormat) (bits : Nat) : Magnitude :=
  let unit := Nat.pow 2 f.fractionBits
  let fraction := bits % unit
  let exponent := bits / unit % Nat.pow 2 f.exponentBits
  let least : Int := 2 - (Nat.pow 2 (f.exponentBits - 1) : Nat) - f.fractionBits
  if exponent = Nat.pow 2 f.exponentBits - 1 then
    if fraction = 0 then .infinite else .nan
  else if exponent = 0 then .finite fraction least
  else .finite (unit + fraction) (least + exponent - 1)

end FloatFormat

/-! ## Decimals -/

/-- The decimal `digits * 10 ^ scale`. -/
structure Decimal where
  digits : Nat
  scale : Int
deriving DecidableEq

namespace Decimal

/-- The numbers that read back to `m * 2 ^ q`, as the bounds in quarters of
`2 ^ q`. Below a power of two the next number is only half as far. -/
structure Interval where
  low : Nat
  mid : Nat
  high : Nat
  /-- Whether a bound itself reads back. -/
  closed : Bool

def Interval.around (f : FloatFormat) (m : Nat) : Interval :=
  ⟨if m = Nat.pow 2 f.fractionBits then 4 * m - 1 else 4 * m - 2, 4 * m, 4 * m + 2, m % 2 = 0⟩

/-- Both `a * 2 ^ q` and `b * 10 ^ g` as multiples of one unit. -/
def scaled (q g : Int) (a b : Nat) : Nat × Nat :=
  (a * Nat.pow 2 q.toNat * Nat.pow 10 (-g).toNat, b * Nat.pow 10 g.toNat * Nat.pow 2 (-q).toNat)

/-- Whether `n * 10 ^ g` lies in the interval of quarters `2 ^ (q - 2)`. -/
def Interval.holds (i : Interval) (q g : Int) (n : Nat) : Bool :=
  let low := scaled (q - 2) g i.low n
  let high := scaled (q - 2) g i.high n
  if i.closed then low.1 ≤ low.2 && high.2 ≤ high.1 else low.1 < low.2 && high.2 < high.1

/-- The greatest multiple of `10 ^ g` that is at most the middle. -/
def Interval.floor (i : Interval) (q g : Int) : Nat :=
  let s := scaled (q - 2) g i.mid 1
  s.1 / s.2

/-- The multiple of `10 ^ g` in the interval that is nearest to the middle: of
all of them only the two neighbours of the middle can be it. Of two that are
equally near it is the greater. -/
def Interval.onGrid? (i : Interval) (q g : Int) : Option Nat :=
  let n := i.floor q g
  match i.holds q g n, i.holds q g (n + 1) with
  | true, true =>
    let below := scaled (q - 2) g i.mid n
    let above := scaled (q - 2) g i.mid (n + 1)
    some (if below.1 - below.2 < above.2 - above.1 then n else n + 1)
  | true, false => some n
  | false, true => some (n + 1)
  | false, false => none

/-- The first hit of the grids `10 ^ g`, `10 ^ (g - 1)`, and so on. -/
def Interval.coarsest (i : Interval) (q : Int) : Int → Nat → Decimal
  | g, 0 => ⟨i.floor q g, g⟩
  | g, fuel + 1 =>
    match i.onGrid? q g with
    | some n => ⟨n, g⟩
    | none => i.coarsest q (g - 1) fuel

def trim (d : Decimal) : Nat → Decimal
  | 0 => d
  | fuel + 1 =>
    if d.digits ≠ 0 ∧ d.digits % 10 = 0 then trim ⟨d.digits / 10, d.scale + 1⟩ fuel else d

/-- A power of ten that is above `m * 2 ^ q`, and less than a hundred times as
large or so. -/
def ceilingPower (m : Nat) (q : Int) : Int :=
  (((Nat.log2 m : Int) + 1 + q) * 30103).fdiv 100000 + 1

/-- The shortest decimal that reads back to `m * 2 ^ q`, for `m` above zero. -/
def shortest (f : FloatFormat) (m : Nat) (q : Int) : Decimal :=
  ((Interval.around f m).coarsest q (ceilingPower m q) 20).trim 20

/-! ## Layout -/

def digitText (d : Decimal) : String := toString d.digits

def lead (d : Decimal) : Int := d.scale + d.digitText.length - 1

def zeros (n : Nat) : String := String.ofList (List.replicate n '0')

/-- All digits around the point; a whole number has no point. -/
def positional (d : Decimal) : String :=
  let ds := d.digitText
  if 0 ≤ d.scale then ds ++ zeros d.scale.toNat
  else
    let places := (-d.scale).toNat
    let padded := zeros (places + 1 - ds.length) ++ ds
    let cs := padded.toList
    String.ofList (cs.take (cs.length - places)) ++ "." ++ String.ofList (cs.drop (cs.length - places))

/-- One digit, the others after a point, and the power of ten. -/
def scientific (d : Decimal) : String :=
  let cs := d.digitText.toList
  let rest := if cs.length ≤ 1 then "" else "." ++ String.ofList (cs.drop 1)
  String.ofList (cs.take 1) ++ rest ++ "e" ++ toString d.lead

end Decimal

/-! ## Floating numbers as text -/

/-- Zero is `0` here, as every whole number. -/
def magnitudePlain (f : FloatFormat) : Magnitude → String
  | .nan => "NaN"
  | .infinite => "inf"
  | .finite 0 _ => "0"
  | .finite m q => (Decimal.shortest f m q).positional

/-- Powers of ten that the long form writes with all digits. -/
def positionalFrom : Int := -4
def positionalBelow : Int := 16

/-- A whole number ends in `.0`; a very small or very large one has an exponent. -/
def magnitudeLong (f : FloatFormat) : Magnitude → String
  | .nan => "NaN"
  | .infinite => "inf"
  | .finite 0 _ => "0.0"
  | .finite m q =>
    let d := Decimal.shortest f m q
    if positionalFrom ≤ d.lead ∧ d.lead < positionalBelow then
      if 0 ≤ d.scale then d.positional ++ ".0" else d.positional
    else d.scientific

/-- The sign of what is not a number is not shown. -/
def signed (f : FloatFormat) (bits : Nat) (text : Magnitude → String) : String :=
  match f.magnitude bits with
  | .nan => text .nan
  | x => if f.isNegative bits then "-" ++ text x else text x

/-- A floating number, never with an exponent. -/
def float (f : FloatFormat) (bits : Nat) : String := signed f bits (magnitudePlain f)

/-- A floating number that always shows that it is one. -/
def floatLong (f : FloatFormat) (bits : Nat) : String := signed f bits (magnitudeLong f)

end PatternDispatch.Text

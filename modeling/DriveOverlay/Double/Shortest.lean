import DriveOverlay.Double.Decimal
import DriveOverlay.Powers

/-! # Shortest decimal text of doubles

A finite double `m * 2 ^ e` is written with the fewest decimal digits that read back as the same
double; of several such texts with that many digits, with the nearest one.  The reals that read
back are those up to half a unit in the last place away, the ends only when `m` is even; below a
power of two the lower half unit is half as wide.

`digits` walks the decimal grids from coarse to fine and tests the two neighbours of the value on
each; 17 digits always suffice.  `text?` places the point: positional from `0.00001` up to below
`10 ^ 16`, always with a digit behind the point, otherwise with an exponent, which carries its
sign. -/

namespace DriveOverlay.Double

/-- The magnitude of a finite double as `mantissa * 2 ^ exponent`. -/
def magnitude (x : Float) : Nat × Int :=
  let bits : Nat := x.toBits.toNat % twoTo 63
  let biased : Nat := bits / twoTo 52
  let fraction : Nat := bits % twoTo 52
  if biased = 0 then (fraction, -1074) else (fraction + twoTo 52, biased - 1075)

/-- A value and the two ends of the interval that reads back as it, over one denominator. -/
structure Interval where
  value : Nat
  low : Nat
  high : Nat
  denominator : Nat
  closed : Bool

/-- The interval of a positive magnitude. -/
def interval (mantissa : Nat) (exponent : Int) : Interval :=
  let scale := twoTo exponent.toNat
  let narrow := mantissa = twoTo 52 && -1074 < exponent
  { value := 4 * mantissa * scale
    low := (4 * mantissa - if narrow then 1 else 2) * scale
    high := (4 * mantissa + 2) * scale
    denominator := 4 * twoTo (-exponent).toNat
    closed := mantissa % 2 = 0 }

/-- The point `n * 10 ^ place` reads back. -/
def Interval.holds (i : Interval) (n : Nat) (place : Int) : Bool :=
  let point := n * tenTo place.toNat * i.denominator
  let unit := tenTo (-place).toNat
  let low := i.low * unit
  let high := i.high * unit
  if i.closed then low ≤ point && point ≤ high else low < point && point < high

/-- The point of the grid of step `10 ^ place` that reads back and is nearest to the value. -/
def Interval.onGrid? (i : Interval) (place : Int) : Option Nat :=
  let numerator := i.value * tenTo (-place).toNat
  let step := tenTo place.toNat * i.denominator
  let below := numerator / step
  let twice := 2 * (numerator % step)
  let lowerFits := i.holds below place
  let upperFits := i.holds (below + 1) place
  if lowerFits && upperFits then
    some (if step < twice || (twice == step && below % 2 == 1) then below + 1 else below)
  else if lowerFits then some below
  else if upperFits then some (below + 1)
  else none

/-- The decimal exponent of the value: `10 ^ k ≤ value < 10 ^ (k + 1)`, searched from `k`
upward. -/
def Interval.exponentFrom (i : Interval) : Nat → Int → Int
  | 0, k => k
  | n + 1, k =>
    if i.value * tenTo (-(k + 1)).toNat < tenTo (k + 1).toNat * i.denominator then k
    else i.exponentFrom n (k + 1)

/-- The first grid with a hit, from `place` down. -/
def Interval.shortest (i : Interval) : Nat → Int → Nat × Int
  | 0, place => (i.value / i.denominator, place)
  | n + 1, place =>
    match i.onGrid? place with
    | some d => (d, place)
    | none => i.shortest n (place - 1)

/-- Shortest digits and the place of the last one, of a positive magnitude. -/
def digits (mantissa : Nat) (exponent : Int) : Nat × Int :=
  let i := interval mantissa exponent
  -- a decimal digit is worth log 10 / log 2 binary ones
  let estimate := (exponent + mantissa.log2) * 30103 / 100000 - 1
  let (d, place) := i.shortest 18 (i.exponentFrom 4 estimate)
  trim 20 d place
where
  /-- Zeros at the end become part of the place. -/
  trim : Nat → Nat → Int → Nat × Int
    | 0, d, place => (d, place)
    | n + 1, d, place => if d % 10 = 0 && 0 < d then trim n (d / 10) (place + 1) else (d, place)

/-- The digits of a positive decimal with its point or exponent. -/
def place (d : Nat) (last : Int) : String :=
  let ds := toString d
  let count : Int := ds.length
  -- the point stands behind so many digits
  let point := count + last
  if 0 ≤ last && point ≤ 16 then ds ++ "".pushn '0' last.toNat ++ ".0"
  else if 0 < point && point ≤ 16 then
    (ds.take point.toNat).toString ++ "." ++ (ds.drop point.toNat).toString
  else if -5 < point && point ≤ 0 then "0." ++ "".pushn '0' (-point).toNat ++ ds
  else
    let exponent := (if 0 < point then "e+" else "e") ++ toString (point - 1)
    if ds.length = 1 then ds ++ exponent
    else (ds.take 1).toString ++ "." ++ (ds.drop 1).toString ++ exponent

/-- The shortest text of a finite double; a special value has none. -/
def text? (x : Float) : Option String :=
  if !x.isFinite then none else
  let sign := if 0x8000000000000000 ≤ x.toBits then "-" else ""
  let (mantissa, exponent) := magnitude x
  if mantissa = 0 then some (sign ++ "0.0") else
  let (d, last) := digits mantissa exponent
  some (sign ++ place d last)

end DriveOverlay.Double

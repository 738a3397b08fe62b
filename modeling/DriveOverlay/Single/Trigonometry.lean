import DriveOverlay.Single.Rounding

/-! # Sine and cosine of singles

The argument is reduced to `[-π/4, π/4]` and a quadrant, in double precision, and a short
polynomial in the reduced argument gives the result, rounded to a single once at the end.

* Below `3/4` nothing is reduced; below `2 ^ -12` the sine is the argument and the cosine is `1`.
* Below `120` the quadrant is the rounded product with `2 / π`.
* Above, `2 / π` is taken from a table of its leading bits: a 24-bit mantissa times three words
  of the table, starting at the word that the exponent selects, leaves the quadrant in the two
  top bits of a 64-bit word and the angle within it, in units of `2π · 2 ^ -64`, in the rest.

In quadrants 2 and 3 both functions change their sign; in the odd ones they change places. -/

namespace DriveOverlay.Single

/-! ### Polynomials on the reduced argument -/

/-- Sine near zero: `x - x³/6 + x⁵/120 - x⁷/5040`, its coefficients fitted to `[-π/4, π/4]`. -/
def sineNearZero (x square : Float) : Float :=
  let cube := x * square
  let high := .ofBits 0x3f81107605230bc4 + square * .ofBits 0xbf2994eb3774cf24
  let low := x + cube * .ofBits 0xbfc555545995a603
  low + (cube * square) * high

/-- Cosine near zero: `1 - x²/2 + x⁴/24 - x⁶/720 + x⁸/40320`, fitted likewise. -/
def cosineNearZero (square : Float) : Float :=
  let fourth := square * square
  let high := .ofBits 0xbf56c087e89a359d + square * .ofBits 0x3ef99343027bf8c3
  let start := 1 + square * .ofBits 0xbfdffffffd0c621c
  let low := start + fourth * .ofBits 0x3fa55553e1068f19
  low + (fourth * square) * high

/-! ### Reduction -/

/-- An angle as a number of quarter turns and the rest, in radians. -/
structure Reduced where
  quarters : Int
  rest : Float

/-- The double equal to an integer of magnitude below `2 ^ 53`. -/
def wholeDouble : Int → Float
  | .ofNat n => (UInt64.ofNat n).toFloat
  | .negSucc n => -(UInt64.ofNat (n + 1)).toFloat

/-- Reduction by the rounded product with `2 / π`, for arguments of magnitude below `120`. -/
def reduceSmall (x : Float) : Reduced :=
  -- in units of `2 ^ -24`; the fraction of the product is cut off before it is rounded
  let product := x * .ofBits 0x41645f306dc9c883
  let whole : Int := if product < 0 then -((-product).toUInt64.toNat) else product.toUInt64.toNat
  let quarters := (whole + 0x800000) / 0x1000000
  ⟨quarters, x - wholeDouble quarters * .ofBits 0x3ff921fb54442d18⟩

/-- Leading bits of `4 / π`, one byte further on in each word. -/
def inverseQuarterPi : Array UInt64 := #[
  0xa2, 0xa2f9, 0xa2f983, 0xa2f9836e, 0xf9836e4e, 0x836e4e44, 0x6e4e4415, 0x4e441529,
  0x441529fc, 0x1529fc27, 0x29fc2757, 0xfc2757d1, 0x2757d1f5, 0x57d1f534, 0xd1f534dd, 0xf534ddc0,
  0x34ddc0db, 0xddc0db62, 0xc0db6295, 0xdb629599, 0x6295993c, 0x95993c43, 0x993c4390, 0x3c439041]

/-- Reduction by the table, of the magnitude whose bits are given. -/
def reduceLarge (bits : UInt32) : Reduced :=
  let first := ((bits >>> 26) &&& 15).toNat
  let word (k : Nat) : UInt64 := inverseQuarterPi.getD (first + k) 0
  let mantissa := (((bits &&& 0xffffff) ||| 0x800000) <<< ((bits >>> 23) &&& 7)).toUInt64
  -- of the first product only the low 32 bits are below a whole turn
  let turns := (((mantissa * word 8) >>> 32) ||| ((mantissa * word 0) <<< 32)) + mantissa * word 4
  let quarters := (turns + 0x2000000000000000) >>> 62
  let rest := turns - (quarters <<< 62)
  let signedRest := if rest < 0x8000000000000000 then rest.toFloat else -(0 - rest).toFloat
  ⟨quarters.toNat, signedRest * .ofBits 0x3c1921fb54442d18⟩

/-- Quarter turns and rest of a finite angle; both change their sign with it. -/
def reduce (x : Float32) : Reduced :=
  let bits := x.toBits &&& 0x7fffffff
  if bits < 0x3f400000 then ⟨0, toDouble x⟩
  else if bits < 0x42f00000 then reduceSmall (toDouble x)
  else
    let r := reduceLarge bits
    if isNegative x then ⟨-r.quarters, -r.rest⟩ else r

/-! ### The functions -/

/-- The sine after `quarters` quarter turns and `rest`. -/
def sineAt (quarters : Int) (rest : Float) : Float32 :=
  let square := rest * rest
  let value := if quarters % 2 = 0 then sineNearZero rest square else cosineNearZero square
  ofDouble (if quarters % 4 < 2 then value else -value)

/-- Sine of an angle in radians; NaN unless it is finite. -/
def sin (x : Float32) : Float32 :=
  if x.toBits &&& 0x7fffffff < 0x39800000 then x
  else if x.isFinite then sineAt (reduce x).quarters (reduce x).rest
  else x - x

/-- Cosine of an angle in radians, the sine a quarter turn on; NaN unless the angle is finite. -/
def cos (x : Float32) : Float32 :=
  if x.toBits &&& 0x7fffffff < 0x39800000 then 1
  else if x.isFinite then sineAt ((reduce x).quarters + 1) (reduce x).rest
  else x - x

/-- Degrees to radians, by the single nearest to `π / 180`. -/
def toRadians (degrees : Float32) : Float32 :=
  degrees * (.ofBits 0x40490fdb / 180)

end DriveOverlay.Single

/-! # Single precision: whole numbers, rounding and clamping

All geometry and telemetry of the overlay is kept in IEEE single precision.  The arithmetic is
that of `Float32`; this file adds the conversions around it, each built from operations whose
value the logic can see:

* `ofNat`, `ofInt`, `ofDouble` round to the nearest single, ties to even; `toDouble` is exact;
* `toInt bound` cuts the fraction off and holds the result in `[-bound, bound - 1]`;
* `floor`, `ceil`, `round` (a half goes away from zero) and `roundTiesEven` return singles;
* `lower`, `upper` and `clamp` pick one of their operands, a number before NaN.

A single of magnitude `2 ^ 23` or more has no fraction, so the rounding functions only have to
look at smaller ones, whose whole part fits in 32 bits. -/

namespace DriveOverlay.Single

open Float.Model (UnpackedFloat Format)

/-! ### Conversions -/

/-- The single nearest to a natural number below `2 ^ 64`. -/
def ofNat (n : Nat) : Float32 :=
  (UInt64.ofNat n).toFloat32

/-- The single nearest to an integer of magnitude below `2 ^ 64`. -/
def ofInt : Int → Float32
  | .ofNat n => ofNat n
  | .negSucc n => -ofNat (n + 1)

/-- The single nearest to a double; what is too large becomes an infinity. -/
def ofDouble (x : Float) : Float32 :=
  .ofModel <| .pack <|
    match x.toModel.unpack with
    | .finite sign mantissa exponent _ => .round Format.binary32 sign mantissa exponent
    | special => special

/-- The double equal to a single. -/
def toDouble (x : Float32) : Float :=
  .ofModel <| .pack <|
    match x.toModel.unpack with
    | .finite sign mantissa exponent _ => .round Format.binary64 sign mantissa exponent
    | special => special

/-- The whole part of `x`, held in `[-bound, bound - 1]`.  NaN counts as `0`. -/
def toInt (bound : Nat) (x : Float32) : Int :=
  if x < 0 then -(min bound (-x).toUInt64.toNat : Nat) else (min (bound - 1) x.toUInt64.toNat : Nat)

/-- The whole part of `x`, held in the signed 32-bit range. -/
def toInt32 (x : Float32) : Int :=
  toInt 2147483648 x

/-- The whole part of `x`, held in the signed 64-bit range. -/
def toInt64 (x : Float32) : Int :=
  toInt 9223372036854775808 x

/-! ### Sign and rounding -/

/-- The sign bit, which also tells `-0` from `0`. -/
def isNegative (x : Float32) : Bool :=
  0x80000000 ≤ x.toBits

/-- `magnitude` with the sign of `x`. -/
def withSignOf (x magnitude : Float32) : Float32 :=
  if isNegative x then -magnitude else magnitude

/-- `x` without its fraction; the sign stays, also on a zero. -/
def trunc (x : Float32) : Float32 :=
  if x.abs < 8388608 then withSignOf x x.abs.toUInt32.toFloat32 else x

/-- The largest whole single not above `x`. -/
def floor (x : Float32) : Float32 :=
  let t := trunc x
  if x < t then t - 1 else t

/-- The smallest whole single not below `x`. -/
def ceil (x : Float32) : Float32 :=
  let t := trunc x
  if t < x then t + 1 else t

/-- The nearest whole single; a half goes away from zero. -/
def round (x : Float32) : Float32 :=
  let t := trunc x
  if 0.5 ≤ (x - t).abs then t + withSignOf x 1 else t

/-- The nearest whole single; a half goes to the even neighbour. -/
def roundTiesEven (x : Float32) : Float32 :=
  let t := trunc x
  let gap := (x - t).abs
  if 0.5 < gap || (gap == 0.5 && x.abs.toUInt32 % 2 == 1) then t + withSignOf x 1 else t

/-! ### Choosing between singles -/

/-- The smaller of two singles, the other one when one is NaN, the second when they are equal. -/
def lower (a b : Float32) : Float32 :=
  if a < b || b.isNaN then a else b

/-- The larger of two singles, the other one when one is NaN, the second when they are equal. -/
def upper (a b : Float32) : Float32 :=
  if b < a || b.isNaN then a else b

/-- `x` moved into `[lo, hi]`; NaN stays NaN. -/
def clamp (x lo hi : Float32) : Float32 :=
  let raised := if x < lo then lo else x
  if hi < raised then hi else raised

/-- Positive infinity. -/
def infinity : Float32 :=
  .ofBits 0x7f800000

/-- A number as it counts in a share: moved into `[0, 1]`, and `0` when it is not finite. -/
def share (x : Float32) : Float32 :=
  if x.isFinite then clamp x 0 1 else 0

end DriveOverlay.Single

import DriveOverlay.Powers
import DriveOverlay.Single.Rounding

/-! # Fixed-point text of singles

`fixed places x` is the exact value of `x` rounded to the given number of decimal places, a tie
going to the even digit.  A sign is kept on whatever carries one, so `-0.4` with no places is
`-0`; there is never an exponent, and the special values are `NaN`, `inf` and `-inf`. -/

namespace DriveOverlay.Single

/-- `num / den` rounded to the nearest natural number, a tie to the even one. -/
def roundQuotient (num den : Nat) : Nat :=
  let q := num / den
  let twice := 2 * (num % den)
  if den < twice || (twice == den && q % 2 == 1) then q + 1 else q

/-- Magnitude of a finite single as `mantissa * 2 ^ exponent`. -/
def magnitude (x : Float32) : Nat × Int :=
  let bits : Nat := x.toBits.toNat % 2147483648
  let biased : Nat := bits / 8388608
  let fraction : Nat := bits % 8388608
  if biased = 0 then (fraction, -149) else (fraction + 8388608, biased - 150)

/-- The magnitude of a finite single in units of `10 ^ -places`, rounded to the nearest. -/
def inUnits (places : Nat) (x : Float32) : Nat :=
  let (mantissa, exponent) := magnitude x
  roundQuotient (mantissa * tenTo places * twoTo exponent.toNat) (twoTo (-exponent).toNat)

/-- Decimal digits of `n`, with zeros in front up to `width`. -/
def padded (width n : Nat) : String :=
  let digits := toString n
  "".pushn '0' (width - digits.length) ++ digits

/-- `x` with exactly `places` digits after the point. -/
def fixed (places : Nat) (x : Float32) : String :=
  if x.isNaN then "NaN" else
  let sign := if isNegative x then "-" else ""
  if x.isFinite then
    let units := inUnits places x
    let whole := toString (units / tenTo places)
    sign ++ if places = 0 then whole else whole ++ "." ++ padded places (units % tenTo places)
  else
    sign ++ "inf"

end DriveOverlay.Single

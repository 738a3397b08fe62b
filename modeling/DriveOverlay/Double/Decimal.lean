/-! # Reading decimals as doubles

Two ways from decimal digits to a double:

* `nearest` rounds once, to the double nearest to the decimal;
* `scaled` holds the digits in 64 bits, rounds them to a double, and multiplies or divides that by
  a power of ten, which is quicker and at most a few units in the last place off.

`ofText?` reads a plain decimal: a sign, digits with a point somewhere, an exponent. -/

namespace DriveOverlay.Double

/-- The double nearest to `10 ^ k`. -/
def powerOfTen (k : Nat) : Float :=
  .ofScientific 1 false k

/-- The double nearest to `digits * 10 ^ exponent`. -/
def nearest (digits : Nat) (exponent : Int) : Float :=
  .ofScientific digits (exponent < 0) exponent.natAbs

/-- `x / 10 ^ k`, in steps of at most `10 ^ 308`. -/
def divideByPower (x : Float) (k : Nat) : Float :=
  if k ≤ 308 then x / powerOfTen k
  else if x == 0 then x
  else divideByPower (x / powerOfTen 308) (k - 308)
termination_by k

/-- `digits * 10 ^ exponent`, the digits being rounded before they are scaled; `none` when it is
too large. -/
def scaled? (digits : UInt64) (exponent : Int) : Option Float :=
  let x := digits.toFloat
  if exponent < 0 then some (divideByPower x exponent.natAbs)
  else if 308 < exponent then (if x == 0 then some x else none)
  else
    let y := x * powerOfTen exponent.natAbs
    if y.isFinite then some y else none

/-- The value of decimal digits. -/
def digitsValue (digits : List Char) : Nat :=
  digits.foldl (fun n c => 10 * n + (c.toNat - 48)) 0

/-- Digits at the front, and the rest. -/
def spanDigits (cs : List Char) : List Char × List Char :=
  cs.span Char.isDigit

/-- An exponent behind its letter, up to the end. -/
def exponent? : List Char → Option Int
  | '-' :: ds => digits? ds |>.map (-·)
  | '+' :: ds => digits? ds
  | ds => digits? ds
where
  /-- All characters are digits, and there is one. -/
  digits? (ds : List Char) : Option Int :=
    if ds.isEmpty || !ds.all Char.isDigit then none else some (digitsValue ds)

/-- Reads an unsigned decimal: digits before or behind a point, and perhaps an exponent. -/
def unsigned? (cs : List Char) : Option Float :=
  let (whole, rest) := spanDigits cs
  let (fraction, rest) := match rest with
    | '.' :: rest => spanDigits rest
    | rest => ([], rest)
  let digits := whole ++ fraction
  if digits.isEmpty then none else
  let value (e : Int) := nearest (digitsValue digits) (e - fraction.length)
  match rest with
  | [] => some (value 0)
  | c :: rest => if c = 'e' || c = 'E' then (exponent? rest).map value else none

/-- Reads a decimal, perhaps with a sign, as the nearest double. -/
def ofText? : List Char → Option Float
  | '-' :: cs => (unsigned? cs).map (-·)
  | '+' :: cs => unsigned? cs
  | cs => unsigned? cs

end DriveOverlay.Double

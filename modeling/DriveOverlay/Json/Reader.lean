import DriveOverlay.Double.Decimal
import DriveOverlay.Json.Basic

/-! # Reading JSON

`Json.ofText?` reads one document and nothing behind it but blanks.  The syntax is strict: no
comments, no comma before a closing bracket, no control character inside a text.

Every reader takes the characters that are left and returns the rest with its result; `none` is a
syntax error.  Values nest, so their readers take a bound on the steps, twice the number of
characters, which no document reaches: each call but every second one consumes a character. -/

namespace DriveOverlay.Json

/-! ### Numbers -/

/-- A number as written: sign, digits before and behind the point, and the exponent, if any. -/
structure Numeral where
  negative : Bool
  integer : List Char
  fraction : Option (List Char)
  exponent : Option Int

/-- Digits at the front, at least one. -/
def someDigits? (cs : List Char) : Option (List Char × List Char) :=
  match Double.spanDigits cs with
  | ([], _) => none
  | found => some found

/-- The digits before the point: no zero in front of others. -/
def integerPart? (cs : List Char) : Option (List Char × List Char) :=
  match someDigits? cs with
  | some ('0' :: _ :: _, _) => none
  | found => found

/-- A point and digits, if there is a point. -/
def fractionPart? : List Char → Option (Option (List Char) × List Char)
  | '.' :: cs => (someDigits? cs).map fun (ds, rest) => (some ds, rest)
  | cs => some (none, cs)

/-- An exponent, if there is its letter. -/
def exponentPart? : List Char → Option (Option Int × List Char)
  | [] => some (none, [])
  | c :: cs =>
    if c = 'e' || c = 'E' then
      match cs with
      | '-' :: cs => (someDigits? cs).map fun (ds, rest) => (some (-Double.digitsValue ds), rest)
      | '+' :: cs => (someDigits? cs).map fun (ds, rest) => (some (Double.digitsValue ds), rest)
      | cs => (someDigits? cs).map fun (ds, rest) => (some (Double.digitsValue ds), rest)
    else some (none, c :: cs)

/-- A number. -/
def numeral? (cs : List Char) : Option (Numeral × List Char) := do
  let (negative, cs) := match cs with
    | '-' :: cs => (true, cs)
    | cs => (false, cs)
  let (integer, cs) ← integerPart? cs
  let (fraction, cs) ← fractionPart? cs
  let (exponent, cs) ← exponentPart? cs
  return (⟨negative, integer, fraction, exponent⟩, cs)

/-- The longest run of digits in front whose value stays below `2 ^ 64`, as its value, and how
many digits come after it. -/
def leading64 : List Char → Nat → Nat × Nat
  | [], n => (n, 0)
  | c :: cs, n =>
    let next := 10 * n + (c.toNat - 48)
    if next < 18446744073709551616 then leading64 cs next else (n, cs.length + 1)

/-- Exponents beyond this are not added up but taken as out of reach. -/
def exponentLimit : Nat := 2147483647

/-- The double for a number that is not a 64-bit whole number.  Digits that do not fit in 64 bits
only count as places. -/
def Numeral.double? (n : Numeral) : Option Float :=
  let fraction := n.fraction.getD []
  let (digits, dropped) := leading64 (n.integer ++ fraction) 0
  let places : Int := dropped - fraction.length
  let magnitude? :=
    match n.exponent with
    | none => Double.scaled? digits.toUInt64 places
    | some e =>
      if e.natAbs ≤ exponentLimit then Double.scaled? digits.toUInt64 (places + e)
      else if 0 < e && digits ≠ 0 then none
      else some 0
  magnitude?.map fun x => if n.negative then -x else x

/-- The value of a number.  Minus zero is a double. -/
def Numeral.toJson (n : Numeral) : Json :=
  let asDouble := match n.double? with
    | some x => real x
    | none => unreadable
  if n.fraction.isSome || n.exponent.isSome then asDouble else
  let magnitude := Double.digitsValue n.integer
  if n.negative then
    if 0 < magnitude && magnitude ≤ 9223372036854775808 then whole (-magnitude) else asDouble
  else if magnitude < 18446744073709551616 then whole magnitude else asDouble

/-! ### Texts -/

/-- The value of a hexadecimal digit. -/
def hexDigit? (c : Char) : Option Nat :=
  if '0' ≤ c && c ≤ '9' then some (c.toNat - 48)
  else if 'a' ≤ c && c ≤ 'f' then some (c.toNat - 87)
  else if 'A' ≤ c && c ≤ 'F' then some (c.toNat - 55)
  else none

/-- Where a reader stands inside a text. -/
inductive Position where
  /-- Between characters. -/
  | between
  /-- Behind a backslash. -/
  | escaped
  /-- Inside a code unit: so many digits are missing, and its value so far. -/
  | unit (missing value : Nat)

/-- A text as far as it is read: its characters, last one first, the first half of a surrogate
pair that waits for the other, and whether every half has found one. -/
structure Partial where
  found : List Char := []
  half : Option Nat := none
  paired : Bool := true

/-- One more character; a half that waits stays alone. -/
def Partial.push (p : Partial) (c : Char) : Partial :=
  { found := c :: p.found, half := none, paired := p.paired && p.half.isNone }

/-- One more code unit. -/
def Partial.pushUnit (p : Partial) (u : Nat) : Partial :=
  if 0xd800 ≤ u && u < 0xdc00 then { p with half := some u, paired := p.paired && p.half.isNone }
  else if 0xdc00 ≤ u && u < 0xe000 then
    match p.half with
    | some high =>
      { p with
        found := Char.ofNat (0x10000 + (high - 0xd800) * 0x400 + (u - 0xdc00)) :: p.found
        half := none }
    | none => { p with paired := false }
  else p.push (Char.ofNat u)

/-- The text, if every half of a pair found the other. -/
def Partial.text? (p : Partial) : Option String :=
  if p.paired && p.half.isNone then some (String.ofList p.found.reverse) else none

/-- The character that a letter stands for behind a backslash. -/
def escape? : Char → Option Char
  | '\x22' => some '\x22'
  | '\\' => some '\\'
  | '/' => some '/'
  | 'b' => some '\x08'
  | 'f' => some '\x0c'
  | 'n' => some '\n'
  | 'r' => some '\r'
  | 't' => some '\t'
  | _ => none

/-- The rest of a text behind its opening quote.  The inner result is `none` for an unpaired
surrogate. -/
def textBody? : List Char → Position → Partial → Option (Option String × List Char)
  | [], _, _ => none
  | c :: cs, .between, p =>
    if c = '\x22' then some (p.text?, cs)
    else if c = '\\' then textBody? cs .escaped p
    else if c < ' ' then none
    else textBody? cs .between (p.push c)
  | c :: cs, .escaped, p =>
    if c = 'u' then textBody? cs (.unit 4 0) p
    else match escape? c with
      | some e => textBody? cs .between (p.push e)
      | none => none
  | c :: cs, .unit missing value, p =>
    match hexDigit? c with
    | none => none
    | some d =>
      let value := 16 * value + d
      if missing ≤ 1 then textBody? cs .between (p.pushUnit value)
      else textBody? cs (.unit (missing - 1) value) p

/-! ### Values -/

/-- A blank between tokens. -/
def isBlank (c : Char) : Bool :=
  c = ' ' || c = '\t' || c = '\n' || c = '\r'

/-- What follows the blanks. -/
def skipBlanks (cs : List Char) : List Char :=
  cs.dropWhile isBlank

/-- An object from its members; if a name has no text, neither has the object a value. -/
def ofMembers (members : List (Option String × Json)) : Json :=
  match members.mapM fun (name?, value) => name?.map (·, value) with
  | some members => object members
  | none => unreadable

mutual

/-- One value. -/
def value? : Nat → List Char → Option (Json × List Char)
  | 0, _ => none
  | fuel + 1, cs =>
    match skipBlanks cs with
    | 'n' :: 'u' :: 'l' :: 'l' :: rest => some (null, rest)
    | 't' :: 'r' :: 'u' :: 'e' :: rest => some (bool true, rest)
    | 'f' :: 'a' :: 'l' :: 's' :: 'e' :: rest => some (bool false, rest)
    | '\x22' :: rest =>
      (textBody? rest .between {}).map fun (t?, rest) =>
        (match t? with | some t => text t | none => unreadable, rest)
    | '[' :: rest =>
      match skipBlanks rest with
      | ']' :: rest => some (list [], rest)
      | rest => (items? fuel rest).map fun (vs, rest) => (list vs, rest)
    | '\x7b' :: rest =>
      match skipBlanks rest with
      | '\x7d' :: rest => some (object [], rest)
      | rest => (members? fuel rest).map fun (ms, rest) => (ofMembers ms, rest)
    | rest => (numeral? rest).map fun (n, rest) => (n.toJson, rest)

/-- The items of a list, up to its closing bracket. -/
def items? : Nat → List Char → Option (List Json × List Char)
  | 0, _ => none
  | fuel + 1, cs => do
    let (v, rest) ← value? fuel cs
    match skipBlanks rest with
    | ',' :: rest => (items? fuel rest).map fun (vs, rest) => (v :: vs, rest)
    | ']' :: rest => some ([v], rest)
    | _ => none

/-- The members of an object, up to its closing bracket. -/
def members? : Nat → List Char → Option (List (Option String × Json) × List Char)
  | 0, _ => none
  | fuel + 1, cs =>
    match skipBlanks cs with
    | '\x22' :: rest => do
      let (name, rest) ← textBody? rest .between {}
      match skipBlanks rest with
      | ':' :: rest => do
        let (v, rest) ← value? fuel rest
        match skipBlanks rest with
        | ',' :: rest => (members? fuel rest).map fun (ms, rest) => ((name, v) :: ms, rest)
        | '\x7d' :: rest => some ([(name, v)], rest)
        | _ => none
      | _ => none
    | _ => none

end

/-- Reads a document: one value, with blanks around it. -/
def ofText? (s : String) : Option Json :=
  let cs := s.toList
  match value? (2 * cs.length + 2) cs with
  | some (v, rest) => if (skipBlanks rest).isEmpty then some v else none
  | none => none

end DriveOverlay.Json

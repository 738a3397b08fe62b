import DriveOverlay.Double.Decimal
import DriveOverlay.Single.Rounding

/-! # YAML nodes

The tree of a YAML document.  A scalar is a text that is either plain or quoted; what a plain one
means depends on what is asked of it:

* as a text, every scalar is itself;
* as a flag, a plain `true` or `false`, also capitalised;
* as a natural number, plain decimal digits without a leading zero, or digits behind `0x`, `0o`
  or `0b`, perhaps with a plus sign;
* as a number, a plain decimal of finite value, `.inf`, `-.inf` or `.nan`.

A mapping is read as a record by `field?`: its keys have to be texts, unknown names are ignored, a
name that is asked for may occur once, and keeps its resting value when it is missing.  An empty
plain scalar is the empty mapping. -/

namespace DriveOverlay

/-- A node of a YAML document. -/
inductive Yaml where
  | scalar (text : String) (quoted : Bool)
  | sequence (items : List Yaml)
  | mapping (members : List (Yaml × Yaml))
deriving Inhabited

namespace Yaml

/-- The scalar that an absent value is. -/
def absent : Yaml := .scalar "" false

/-- The text of a plain scalar. -/
def plain? : Yaml → Option String
  | .scalar s false => some s
  | _ => none

/-! ### Scalars -/

/-- A text. -/
def text? : Yaml → Option String
  | .scalar s _ => some s
  | _ => none

/-- A flag. -/
def flag? (y : Yaml) : Option Bool := do
  match ← y.plain? with
  | "true" | "True" | "TRUE" => some true
  | "false" | "False" | "FALSE" => some false
  | _ => none

/-- The value of a digit, in a base up to sixteen. -/
def digit? (base : Nat) (c : Char) : Option Nat :=
  let value :=
    if '0' ≤ c && c ≤ '9' then c.toNat - 48
    else if 'a' ≤ c && c ≤ 'f' then c.toNat - 87
    else if 'A' ≤ c && c ≤ 'F' then c.toNat - 55
    else base
  if value < base then some value else none

/-- The value of one digit or more. -/
def digits? (base : Nat) (cs : List Char) : Option Nat :=
  if cs.isEmpty then none else
  (cs.mapM (digit? base)).map fun ds => ds.foldl (fun n d => base * n + d) 0

/-- A natural number without its sign. -/
def unsigned? : List Char → Option Nat
  | '0' :: 'x' :: ds => digits? 16 ds
  | '0' :: 'o' :: ds => digits? 8 ds
  | '0' :: 'b' :: ds => digits? 2 ds
  | ['0'] => some 0
  | '0' :: _ => none
  | ds => digits? 10 ds

/-- A natural number below `bound`. -/
def natural? (bound : Nat) (y : Yaml) : Option Nat := do
  let n ← match (← y.plain?).toList with
    | '+' :: cs => unsigned? cs
    | cs => unsigned? cs
  if n < bound then some n else none

/-- A byte. -/
def byte? (y : Yaml) : Option UInt8 :=
  (y.natural? 256).map UInt8.ofNat

/-- A number of 32 bits. -/
def natural32? (y : Yaml) : Option UInt32 :=
  (y.natural? 4294967296).map UInt32.ofNat

/-- A decimal whose value is finite. -/
def finite? (cs : List Char) : Option Float :=
  (Double.ofText? cs).filter Float.isFinite

/-- A double. -/
def double? (y : Yaml) : Option Float := do
  match ← y.plain? with
  | ".inf" | ".Inf" | ".INF" | "+.inf" | "+.Inf" | "+.INF" => some (1 / 0)
  | "-.inf" | "-.Inf" | "-.INF" => some (-1 / 0)
  | ".nan" | ".NaN" | ".NAN" => some (0 / 0)
  | s => finite? s.toList

/-- A single, rounded from a double. -/
def single? (y : Yaml) : Option Float32 :=
  y.double?.map Single.ofDouble

/-- One of several named values. -/
def named? {α : Type} (all : List α) (name : α → String) (y : Yaml) : Option α :=
  y.text?.bind fun s => all.find? fun a => name a = s

/-! ### Collections -/

/-- A sequence of exactly two. -/
def pair? {α : Type} (read? : Yaml → Option α) : Yaml → Option (α × α)
  | .sequence [a, b] => do return (← read? a, ← read? b)
  | _ => none

/-- The members of a record; their names are texts. -/
def fields? : Yaml → Option (List (String × Yaml))
  | .mapping members => members.mapM fun (k, y) => k.text?.map (·, y)
  | .scalar "" false => some []
  | _ => none

/-- The field of a name, or its resting value. -/
def field? {α : Type} (members : List (String × Yaml)) (name : String) (resting : α)
    (read? : Yaml → Option α) : Option α :=
  match members.filter (·.1 = name) with
  | [] => some resting
  | [(_, y)] => read? y
  | _ => none

end Yaml

end DriveOverlay

import DriveOverlay.Json.Basic
import DriveOverlay.Single.Rounding

/-! # Codecs

A codec writes values of a type as JSON and reads them back.  Reading is strict about types:

* a whole-number field takes whole literals in its range only, a number field every number, a
  number too large for a single becoming infinite;
* `null` stands for a missing optional number, and for nothing else; a number without a literal
  is written as `null`;
* a named value is its name, or an object of one member of that name that is `null`.

A record is described once, by the table of its fields: name, codec, and how the field is got and
set.  It is written as an object.  It is read from an object, in which members may come in any
order, unknown ones are ignored and none of the known ones may occur twice, or from the list of
its fields in the order of the table.  Where fields may be left out, a missing one keeps the
value that it has in the record's resting value, and the list may stop early. -/

namespace DriveOverlay

/-- A way to write values of a type and to read them. -/
structure Codec (α : Type) where
  encode : α → Json
  decode? : Json → Option α

namespace Codec

/-! ### Leaves -/

/-- A flag. -/
def flag : Codec Bool where
  encode := .bool
  decode?
    | .bool b => some b
    | _ => none

/-- A text. -/
def text : Codec String where
  encode := .text
  decode?
    | .text s => some s
    | _ => none

/-- A single. -/
def single : Codec Float32 where
  encode x := if x.isFinite then .real (Single.toDouble x) else .null
  decode?
    | .whole i => some (Single.ofInt i)
    | .real x => some (Single.ofDouble x)
    | _ => none

/-- A single that may be missing. -/
def optionalSingle : Codec (Option Float32) where
  encode
    | some x => single.encode x
    | none => .null
  decode?
    | .null => some none
    | j => (single.decode? j).map some

/-- A literal that is a whole number below `bound`. -/
def natural? (bound : Nat) : Json → Option Nat
  | .whole i => if 0 ≤ i && i < bound then some i.toNat else none
  | _ => none

/-- A number from 0 to 255. -/
def byte : Codec UInt8 where
  encode n := .whole n.toNat
  decode? j := (natural? 256 j).map UInt8.ofNat

/-- A number of 32 bits. -/
def natural32 : Codec UInt32 where
  encode n := .whole n.toNat
  decode? j := (natural? 4294967296 j).map UInt32.ofNat

/-- A number of 64 bits. -/
def natural64 : Codec UInt64 where
  encode n := .whole n.toNat
  decode? j := (natural? 18446744073709551616 j).map UInt64.ofNat

/-- The name in a named value. -/
def name? : Json → Option String
  | .text s => some s
  | .object [(s, .null)] => some s
  | _ => none

/-- One of several named values. -/
def named {α : Type} (all : List α) (name : α → String) : Codec α where
  encode a := .text (name a)
  decode? j := (name? j).bind fun s => all.find? fun a => name a = s

/-! ### Lists and pairs -/

/-- A list of any length. -/
def list {α : Type} (c : Codec α) : Codec (List α) where
  encode as := .list (as.map c.encode)
  decode?
    | .list items => items.mapM c.decode?
    | _ => none

/-- A list of exactly two. -/
def pair {α : Type} (c : Codec α) : Codec (α × α) where
  encode p := .list [c.encode p.1, c.encode p.2]
  decode?
    | .list [a, b] => do return (← c.decode? a, ← c.decode? b)
    | _ => none

/-! ### Records -/

/-- A field of a record. -/
structure Field (α : Type) where
  name : String
  Value : Type
  codec : Codec Value
  get : α → Value
  set : Value → α → α

/-- Sets a field to the value that is read from `j`. -/
def Field.assign? {α : Type} (f : Field α) (j : Json) (a : α) : Option α :=
  (f.codec.decode? j).map (f.set · a)

/-- Whether fields may be left out of a record. -/
inductive Completeness where
  | partialRecord
  | fullRecord
deriving DecidableEq

/-- What a field that is left out does to the record. -/
def Completeness.leftOut {α : Type} (k : Completeness) (a : α) : Option α :=
  match k with
  | .partialRecord => some a
  | .fullRecord => none

/-- Sets every field to the member of its name. -/
def assignMembers? {α : Type} (k : Completeness) (members : List (String × Json)) :
    List (Field α) → α → Option α
  | [], a => some a
  | f :: fs, a => do
    match members.filter (·.1 = f.name) with
    | [] => assignMembers? k members fs (← k.leftOut a)
    | [(_, j)] => assignMembers? k members fs (← f.assign? j a)
    | _ => none

/-- Sets every field to the item at its place. -/
def assignItems? {α : Type} (k : Completeness) : List Json → List (Field α) → α → Option α
  | [], [], a => some a
  | [], _ :: fs, a => do assignItems? k [] fs (← k.leftOut a)
  | j :: js, f :: fs, a => do assignItems? k js fs (← f.assign? j a)
  | _ :: _, [], _ => none

/-- A record from its resting value and the table of its fields. -/
def record {α : Type} (k : Completeness) (resting : α) (fields : List (Field α)) : Codec α where
  encode a := .object (fields.map fun f => (f.name, f.codec.encode (f.get a)))
  decode?
    | .object members => assignMembers? k members fields resting
    | .list items => assignItems? k items fields resting
    | _ => none

end Codec

end DriveOverlay

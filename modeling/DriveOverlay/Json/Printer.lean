import DriveOverlay.Double.Shortest
import DriveOverlay.Json.Basic

/-! # Writing JSON

`render` writes a value without blanks, `pretty` over several lines, two spaces to a level.
Quotes, backslashes and control characters are escaped, everything else stands for itself.  What
JSON has no literal for, an infinity, NaN or an unreadable literal, is written as `null`. -/

namespace DriveOverlay.Json

/-- A hexadecimal digit, in lower case. -/
def hexChar (n : Nat) : Char :=
  Nat.digitChar (n % 16)

/-- A character inside a text. -/
def escapedChar (c : Char) : List Char :=
  if c = '\x22' then ['\\', '\x22']
  else if c = '\\' then ['\\', '\\']
  else if c = '\n' then ['\\', 'n']
  else if c = '\r' then ['\\', 'r']
  else if c = '\t' then ['\\', 't']
  else if c = '\x08' then ['\\', 'b']
  else if c = '\x0c' then ['\\', 'f']
  else if c < ' ' then ['\\', 'u', '0', '0', hexChar (c.toNat / 16), hexChar c.toNat]
  else [c]

/-- A text in quotes. -/
def quoted (s : String) : String :=
  let mark := "\x22"
  mark ++ String.ofList (s.toList.flatMap escapedChar) ++ mark

/-- A value that is neither a list nor an object. -/
def renderLeaf : Json → String
  | .bool b => if b then "true" else "false"
  | .whole i => toString i
  | .real x => (Double.text? x).getD "null"
  | .text s => quoted s
  | _ => "null"

mutual

/-- A value on one line, without blanks. -/
def render : Json → String
  | .list items => "[" ++ renderItems items ++ "]"
  | .object members => "\x7b" ++ renderMembers members ++ "\x7d"
  | leaf => renderLeaf leaf

/-- Items with commas between them. -/
def renderItems : List Json → String
  | [] => ""
  | [v] => render v
  | v :: vs => render v ++ "," ++ renderItems vs

/-- Members with commas between them. -/
def renderMembers : List (String × Json) → String
  | [] => ""
  | [(name, v)] => quoted name ++ ":" ++ render v
  | (name, v) :: ms => quoted name ++ ":" ++ render v ++ "," ++ renderMembers ms

end

/-- A line break and the indentation of a level. -/
def newLine (level : Nat) : String :=
  "\n" ++ "".pushn ' ' (2 * level)

mutual

/-- A value over several lines, at a level of indentation. -/
def prettyAt (level : Nat) : Json → String
  | .list [] => "[]"
  | .object [] => "\x7b\x7d"
  | .list items => "[" ++ prettyItems (level + 1) items ++ newLine level ++ "]"
  | .object members => "\x7b" ++ prettyMembers (level + 1) members ++ newLine level ++ "\x7d"
  | leaf => renderLeaf leaf

/-- Items, each on a line of its own. -/
def prettyItems (level : Nat) : List Json → String
  | [] => ""
  | [v] => newLine level ++ prettyAt level v
  | v :: vs => newLine level ++ prettyAt level v ++ "," ++ prettyItems level vs

/-- Members, each on a line of its own. -/
def prettyMembers (level : Nat) : List (String × Json) → String
  | [] => ""
  | [(name, v)] => newLine level ++ quoted name ++ ": " ++ prettyAt level v
  | (name, v) :: ms =>
    newLine level ++ quoted name ++ ": " ++ prettyAt level v ++ "," ++ prettyMembers level ms

end

/-- A value over several lines. -/
def pretty (v : Json) : String :=
  prettyAt 0 v

end DriveOverlay.Json

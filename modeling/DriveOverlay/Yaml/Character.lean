/-! # Characters of YAML

A document is a sequence of characters, of which some control characters are not allowed.  Lines
end at a line feed, a carriage return, both together, or a next-line character, which all count as
one line feed, and at the line and paragraph separators, which keep their identity.  Every
character is placed: it knows its line and its column. -/

namespace DriveOverlay.Yaml

/-! ### Classes -/

/-- A character that may stand in a document. -/
def isAllowed (c : Char) : Bool :=
  c = '\t' || c = '\n' || c = '\r' || (' ' ≤ c && c ≤ '~') || c = '\x85' ||
    ('\xa0' ≤ c && c ≤ '\ufffd') || '\uffff' < c

/-- A space or a tab. -/
def isBlank (c : Char) : Bool :=
  c = ' ' || c = '\t'

/-- The end of a line. -/
def isBreak (c : Char) : Bool :=
  c = '\n' || c = '\u2028' || c = '\u2029'

/-- Brackets and commas, which end a plain scalar inside a flow collection. -/
def isFlowMark (c : Char) : Bool :=
  c = ',' || c = '[' || c = ']' || c = '\x7b' || c = '\x7d'

/-- Marks that start something other than a plain scalar. -/
def isIndicator (c : Char) : Bool :=
  isFlowMark c || "#&*!|>'%@\x22\x60".toList.contains c

/-! ### Places -/

/-- A character with its line and its column, both counted from zero. -/
structure Placed where
  char : Char
  line : Nat
  column : Nat

/-- Characters in which line feeds stand for all line breaks but the separators. -/
def unified : List Char → List Char
  | '\r' :: '\n' :: cs => '\n' :: unified cs
  | c :: cs => (if c = '\r' || c = '\x85' then '\n' else c) :: unified cs
  | [] => []

/-- Characters from a place on. -/
def placedFrom (line column : Nat) : List Char → List Placed
  | [] => []
  | c :: cs =>
    ⟨c, line, column⟩ ::
      if isBreak c then placedFrom (line + 1) 0 cs else placedFrom line (column + 1) cs

/-- The characters of a document, if all of them are allowed. -/
def placed? (s : String) : Option (List Placed) :=
  if s.toList.all isAllowed then some (placedFrom 0 0 (unified s.toList)) else none

/-! ### What stands at a place -/

/-- A blank, a line break or the end. -/
def atBlank : List Placed → Bool
  | [] => true
  | p :: _ => isBlank p.char || isBreak p.char

/-- Three dashes or three dots at the start of a line, with a blank behind them, separate
documents. -/
def atDocumentMark : List Placed → Bool
  | p :: q :: r :: rest =>
    p.column = 0 && (p.char = '-' || p.char = '.') && q.char = p.char && r.char = p.char &&
      atBlank rest
  | _ => false

end DriveOverlay.Yaml

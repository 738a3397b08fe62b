import DriveOverlay.Yaml.Scalar

/-! # Tokens of YAML

`Token.ofText?` divides a document into scalars, brackets and commas of flow collections, entries
of sequences, keys and values of mappings, and the starts and ends of block collections, which the
text shows by indentation alone.

A key is known only by the colon behind it.  Therefore the last scalar or flow collection is kept
as a `Candidate` while a colon may still make it a key: on one line, and within 1024 characters.
The colon then puts the key, and perhaps the start of a block mapping, before the candidate.  A
candidate in the column of the block mapping around it has to become a key.

Tabs may separate tokens, but not where a key may start outside a flow collection.  Anchors, tags,
block scalars and directives are no tokens. -/

namespace DriveOverlay.Yaml

/-- A token. -/
inductive Token where
  | scalar (text : String) (quoted : Bool)
  | documentStart
  | documentEnd
  | blockSequence
  | blockMapping
  | blockEnd
  | flowSequence
  | flowSequenceEnd
  | flowMapping
  | flowMappingEnd
  | comma
  | entry
  | key
  | value

/-- A token that a colon may make a key: how many tokens are before it, where it starts, and
whether it has to become one. -/
structure Candidate where
  before : Nat
  line : Nat
  column : Nat
  required : Bool

/-- What is known at a place between two tokens: the tokens so far, last first, the columns of the
open block collections, innermost first, the candidate, the candidates outside each open flow
collection, innermost first, and whether a candidate may start here. -/
structure Scan where
  tokens : List Token := []
  count : Nat := 0
  columns : List Nat := []
  candidate : Option Candidate := none
  outer : List (Option Candidate) := []
  ready : Bool := true

namespace Scan

/-- The place is inside a flow collection. -/
def inFlow (s : Scan) : Bool :=
  !s.outer.isEmpty

/-- One more token. -/
def push (s : Scan) (t : Token) : Scan :=
  { s with tokens := t :: s.tokens, count := s.count + 1 }

/-- One more token, which stands behind the first `before` of them. -/
def insert (s : Scan) (before : Nat) (t : Token) : Scan :=
  let (later, earlier) := s.tokens.splitAt (s.count - before)
  { s with tokens := later ++ t :: earlier, count := s.count + 1 }

/-! ### Block collections -/

/-- Starts a block collection in a column, behind the first `before` tokens, unless it goes on
there. -/
def openBlock (s : Scan) (before column : Nat) (t : Token) : Scan :=
  if s.inFlow || s.columns.head?.any (column ≤ ·) then s
  else { s.insert before t with columns := column :: s.columns }

/-- Ends the innermost block collections, as far as their columns satisfy `ends`. -/
def closeBlocks (s : Scan) (ends : Nat → Bool) : Scan :=
  if s.inFlow then s
  else
    let (closed, columns) := s.columns.span ends
    { s with
      tokens := closed.map (fun _ => .blockEnd) ++ s.tokens
      count := s.count + closed.length
      columns }

/-! ### Candidates -/

/-- There is no candidate any more; one that has to become a key is an error. -/
def forget? (s : Scan) : Option Scan :=
  if s.candidate.any (·.required) then none else some { s with candidate := none }

/-- Forgets a candidate that started on another line or too far away. -/
def forgetStale? (s : Scan) (p : Placed) : Option Scan :=
  if s.candidate.any fun c => c.line < p.line || c.column + 1024 < p.column then s.forget?
  else some s

/-- The token that starts at `p` is the candidate, if there may be one. -/
def suggest? (s : Scan) (p : Placed) : Option Scan := do
  if !s.ready then some s else
  let s ← s.forget?
  let required := !s.inFlow && s.columns.head? = some p.column
  some { s with candidate := some ⟨s.count, p.line, p.column, required⟩ }

/-! ### Tokens -/

/-- Three dashes or dots. -/
def documentMark? (s : Scan) (p : Placed) : Option Scan := do
  let s ← (s.closeBlocks fun _ => true).forget?
  some { s.push (if p.char = '-' then .documentStart else .documentEnd) with ready := false }

/-- An opening bracket. -/
def openFlow? (s : Scan) (p : Placed) (t : Token) : Option Scan := do
  let s ← s.suggest? p
  some { s.push t with candidate := none, outer := s.candidate :: s.outer, ready := true }

/-- A closing bracket. -/
def closeFlow? (s : Scan) (t : Token) : Option Scan :=
  match s.outer with
  | [] => none
  | c :: outer => some { s.push t with candidate := c, outer, ready := false }

/-- A comma of a flow collection. -/
def comma? (s : Scan) : Option Scan := do
  let s ← s.forget?
  some { s.push .comma with ready := true }

/-- A token that starts a block collection of its own, where a candidate may start. -/
def startBlock? (s : Scan) (p : Placed) (t : Token) : Option Scan :=
  if s.inFlow then some s
  else if s.ready then some (s.openBlock s.count p.column t)
  else none

/-- A dash before an entry. -/
def entry? (s : Scan) (p : Placed) : Option Scan := do
  let s ← (← s.startBlock? p .blockSequence).forget?
  some { s.push .entry with ready := true }

/-- A question mark before a key. -/
def key? (s : Scan) (p : Placed) : Option Scan := do
  let s ← (← s.startBlock? p .blockMapping).forget?
  some { s.push .key with ready := !s.inFlow }

/-- A colon before a value. -/
def value? (s : Scan) (p : Placed) : Option Scan :=
  match s.candidate with
  | some c =>
    let s := (s.insert c.before .key).openBlock c.before c.column .blockMapping
    some { s.push .value with candidate := none, ready := false }
  | none => do
    let s ← s.startBlock? p .blockMapping
    some { s.push .value with ready := !s.inFlow }

/-- A scalar in quotes. -/
def quoted? (s : Scan) (p : Placed) (scalar? : Option (String × List Placed)) :
    Option (Scan × List Placed) := do
  let s ← s.suggest? p
  let (text, rest) ← scalar?
  some ({ s.push (.scalar text true) with ready := false }, rest)

/-- A plain scalar.  A candidate may start on a line behind it. -/
def plain? (s : Scan) (p : Placed) (text : List Placed) : Option (Scan × List Placed) := do
  let s ← s.suggest? p
  let least := (s.columns.head?.map (· + 1)).getD 0
  let (text, gap, rest) ← plainScalar? s.inFlow least .empty [] text
  some ({ s.push (.scalar text false) with ready := gap.isBroken }, rest)

/-- The token that starts with `p`. -/
def step? (s : Scan) (p : Placed) (rest : List Placed) : Option (Scan × List Placed) :=
  let alone := s.inFlow || atBlank rest
  if atDocumentMark (p :: rest) then (s.documentMark? p).map (·, rest.drop 2)
  else if p.char = '[' then (s.openFlow? p .flowSequence).map (·, rest)
  else if p.char = ']' then (s.closeFlow? .flowSequenceEnd).map (·, rest)
  else if p.char = '\x7b' then (s.openFlow? p .flowMapping).map (·, rest)
  else if p.char = '\x7d' then (s.closeFlow? .flowMappingEnd).map (·, rest)
  else if p.char = ',' then s.comma?.map (·, rest)
  else if p.char = '-' && atBlank rest then (s.entry? p).map (·, rest)
  else if p.char = '?' && alone then (s.key? p).map (·, rest)
  else if p.char = ':' && alone then (s.value? p).map (·, rest)
  else if p.char = '\x27' then s.quoted? p (singleQuoted? .empty [] rest)
  else if p.char = '\x22' then s.quoted? p (doubleQuoted? (.behind .empty) [] rest)
  else if startsPlain s.inFlow (p :: rest) then s.plain? p (p :: rest)
  else none

/-! ### Between tokens -/

/-- What follows blanks, comments and line breaks, and whether a candidate may start there.  A
byte order mark may start a line. -/
def skip (flow : Bool) : (ready comment : Bool) → List Placed → Bool × List Placed
  | ready, _, [] => (ready, [])
  | ready, comment, p :: rest =>
    if isBreak p.char then skip flow (ready || !flow) false rest
    else if comment || p.char = '#' then skip flow ready true rest
    else if p.char = ' ' || (p.char = '\t' && (flow || !ready)) ||
        (p.char = '\ufeff' && p.column = 0) then
      skip flow ready false rest
    else (ready, p :: rest)

/-- The tokens of a text, at most `fuel`. -/
def tokens? : Nat → Scan → List Placed → Option (List Token)
  | 0, _, _ => none
  | fuel + 1, s, text => do
    match skip s.inFlow s.ready false text with
    | (_, []) =>
      let s ← (s.closeBlocks fun _ => true).forget?
      some s.tokens.reverse
    | (ready, p :: rest) =>
      let s ← { s with ready }.forgetStale? p
      let (s, rest) ← (s.closeBlocks (p.column < ·)).step? p rest
      tokens? fuel s rest

end Scan

/-- The tokens of a document. -/
def Token.ofText? (s : String) : Option (List Token) := do
  let text ← placed? s
  Scan.tokens? (text.length + 1) {} text

end DriveOverlay.Yaml

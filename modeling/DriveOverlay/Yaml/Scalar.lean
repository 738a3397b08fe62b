import DriveOverlay.Yaml.Basic
import DriveOverlay.Yaml.Character

/-! # Scalars of YAML

A scalar is written in one of three styles: plain, in single quotes, or in double quotes.  In each
it may go on over several lines.  Between two words stands a `Gap`:

* on one line, its blanks are kept;
* over lines, blanks beside the line breaks are dropped, a single line feed becomes a space, and of
  several the first is dropped;
* a line or paragraph separator is kept also when it is the first;
* in double quotes a backslash removes the line break behind it, and keeps the blanks before it.

A plain scalar ends before a colon with a blank behind it, before a comment, before a document
mark, and outside a flow collection on a line that is not indented further than the collection
around it; a gap before its end does not belong to it.  A quoted scalar ends at its quote only. -/

namespace DriveOverlay.Yaml

/-! ### Gaps -/

/-- What separates two words of a scalar: blanks, or line breaks, of which the first may have been
removed by a backslash.  Characters are kept last first. -/
inductive Gap where
  | blanks (cs : List Char)
  | breaks (first : Option Char) (more : List Char)

namespace Gap

/-- The gap inside a word. -/
def empty : Gap := .blanks []

/-- There is nothing in the gap. -/
def isEmpty : Gap → Bool
  | .blanks cs => cs.isEmpty
  | .breaks .. => false

/-- The gap goes on over a line break. -/
def isBroken : Gap → Bool
  | .blanks _ => false
  | .breaks .. => true

/-- A gap with one more blank. -/
def addBlank (c : Char) : Gap → Gap
  | .blanks cs => .blanks (c :: cs)
  | .breaks first more => .breaks first more

/-- A gap with one more line break. -/
def addBreak (c : Char) : Gap → Gap
  | .blanks _ => .breaks (some c) []
  | .breaks first more => .breaks first (c :: more)

/-- The text of a gap, last character first. -/
def reversed : Gap → List Char
  | .blanks cs => cs
  | .breaks (some '\n') [] => [' ']
  | .breaks (some '\n') more => more
  | .breaks (some c) more => more ++ [c]
  | .breaks none more => more

end Gap

/-! ### Plain scalars -/

/-- A plain scalar may start here. -/
def startsPlain (flow : Bool) : List Placed → Bool
  | [] => false
  | p :: rest =>
    if p.char = '-' then !(atBlank rest)
    else if p.char = '?' || p.char = ':' then !flow && !(atBlank rest)
    else !(isIndicator p.char) && !(atBlank (p :: rest))

/-- A plain scalar ends before the character `p`, which stands behind `gap`. -/
def endsPlain (flow : Bool) (least : Nat) (gap : Gap) (p : Placed) (rest : List Placed) : Bool :=
  (!gap.isEmpty &&
    ((!flow && p.column < least) || atDocumentMark (p :: rest) || p.char = '#')) ||
  (p.char = ':' && atBlank rest) || (flow && isFlowMark p.char)

/-- A colon of a flow collection that has a mark right behind it. -/
def isStuckColon (flow : Bool) (p : Placed) (rest : List Placed) : Bool :=
  flow && p.char = ':' && rest.head?.any fun q => isFlowMark q.char || q.char = '?'

/-- The rest of a plain scalar, whose further lines are indented by at least `least`: its text,
the gap before its end, and what follows.  There is none if a tab takes part in that indentation,
or if a colon is stuck to a mark. -/
def plainScalar? (flow : Bool) (least : Nat) :
    Gap → List Char → List Placed → Option (String × Gap × List Placed)
  | gap, found, [] => some (String.ofList found.reverse, gap, [])
  | gap, found, p :: rest =>
    if isBlank p.char then
      if gap.isBroken && p.char = '\t' && p.column < least then none
      else plainScalar? flow least (gap.addBlank p.char) found rest
    else if isBreak p.char then plainScalar? flow least (gap.addBreak p.char) found rest
    else if endsPlain flow least gap p rest then
      some (String.ofList found.reverse, gap, p :: rest)
    else if isStuckColon flow p rest then none
    else plainScalar? flow least .empty (p.char :: (gap.reversed ++ found)) rest

/-! ### Quoted scalars -/

/-- The rest of a single-quoted scalar; a quote inside is doubled. -/
def singleQuoted? : Gap → List Char → List Placed → Option (String × List Placed)
  | _, _, [] => none
  | gap, found, [p] =>
    if p.char = '\x27' then some (String.ofList (gap.reversed ++ found).reverse, []) else none
  | gap, found, p :: q :: rest =>
    if isBlank p.char then singleQuoted? (gap.addBlank p.char) found (q :: rest)
    else if isBreak p.char then singleQuoted? (gap.addBreak p.char) found (q :: rest)
    else if atDocumentMark (p :: q :: rest) then none
    else
      let found := gap.reversed ++ found
      if p.char ≠ '\x27' then singleQuoted? .empty (p.char :: found) (q :: rest)
      else if q.char = '\x27' then singleQuoted? .empty ('\x27' :: found) rest
      else some (String.ofList found.reverse, q :: rest)

/-- The character that a letter stands for behind a backslash. -/
def escape? : Char → Option Char
  | '0' => some '\x00'
  | 'a' => some '\x07'
  | 'b' => some '\x08'
  | 't' => some '\t'
  | '\t' => some '\t'
  | 'n' => some '\n'
  | 'v' => some '\x0b'
  | 'f' => some '\x0c'
  | 'r' => some '\r'
  | 'e' => some '\x1b'
  | ' ' => some ' '
  | '\x22' => some '\x22'
  | '/' => some '/'
  | '\\' => some '\\'
  | 'N' => some '\x85'
  | '_' => some '\xa0'
  | 'L' => some '\u2028'
  | 'P' => some '\u2029'
  | _ => none

/-- How many hexadecimal digits follow a letter behind a backslash. -/
def codeLength? : Char → Option Nat
  | 'x' => some 2
  | 'u' => some 4
  | 'U' => some 8
  | _ => none

/-- The character of a code point, if it has one. -/
def ofCodePoint? (n : Nat) : Option Char :=
  if n.isValidChar then some (Char.ofNat n) else none

/-- Where a reader stands inside a double-quoted scalar: behind a gap, behind a backslash, or
inside a code point, of which so many digits are missing. -/
inductive Position where
  | behind (gap : Gap)
  | escaped
  | code (missing value : Nat)

/-- The rest of a double-quoted scalar. -/
def doubleQuoted? : Position → List Char → List Placed → Option (String × List Placed)
  | _, _, [] => none
  | .behind gap, found, p :: rest =>
    if isBlank p.char then doubleQuoted? (.behind (gap.addBlank p.char)) found rest
    else if isBreak p.char then doubleQuoted? (.behind (gap.addBreak p.char)) found rest
    else if atDocumentMark (p :: rest) then none
    else
      let found := gap.reversed ++ found
      if p.char = '\x22' then some (String.ofList found.reverse, rest)
      else if p.char = '\\' then doubleQuoted? .escaped found rest
      else doubleQuoted? (.behind .empty) (p.char :: found) rest
  | .escaped, found, p :: rest =>
    if isBreak p.char then doubleQuoted? (.behind (.breaks none [])) found rest
    else
      match codeLength? p.char, escape? p.char with
      | some n, _ => doubleQuoted? (.code n 0) found rest
      | none, some c => doubleQuoted? (.behind .empty) (c :: found) rest
      | none, none => none
  | .code missing value, found, p :: rest =>
    match digit? 16 p.char with
    | none => none
    | some d =>
      let value := 16 * value + d
      if missing ≤ 1 then
        match ofCodePoint? value with
        | some c => doubleQuoted? (.behind .empty) (c :: found) rest
        | none => none
      else doubleQuoted? (.code (missing - 1) value) found rest

end DriveOverlay.Yaml

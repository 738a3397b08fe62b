import DriveOverlay.Yaml.Token

/-! # Reading YAML

`Yaml.ofText?` reads one document; `none` is an error of syntax.  It has block and flow
collections, plain and quoted scalars, and comments, and may stand between document marks.

Not all of YAML is read.  Left out are anchors and aliases, tags, directives, and block scalars; a
text with any of them has no document.

A node is read from the tokens it starts with.  A node that may be missing, behind a dash, a
question mark or a colon, is absent when a token that cannot start it follows.  An item of a flow
sequence that has a key is a mapping of one member.

Readers that nest take a bound on the steps, which no document reaches: of every two calls one
consumes a token. -/

namespace DriveOverlay.Yaml

/-! ### What may follow -/

/-- Behind the dash of a block sequence the entry is missing. -/
def lacksEntry : List Token → Bool
  | .entry :: _ | .blockEnd :: _ => true
  | _ => false

/-- Behind the dash of a sequence that is not indented the entry is missing. -/
def lacksFlushEntry : List Token → Bool
  | .entry :: _ | .key :: _ | .value :: _ | .blockEnd :: _ => true
  | _ => false

/-- The key or the value of a block mapping is missing. -/
def lacksMember : List Token → Bool
  | .key :: _ | .value :: _ | .blockEnd :: _ => true
  | _ => false

/-- The key or the value of a member is missing in a flow mapping, or else in a flow sequence. -/
def lacksFlowPart (inMapping : Bool) : List Token → Bool
  | .value :: _ | .comma :: _ => true
  | .flowMappingEnd :: _ => inMapping
  | .flowSequenceEnd :: _ => !inMapping
  | _ => false

/-! ### Nodes -/

mutual

/-- The node that the tokens start with.  In a mapping a sequence may stand without an indentation
of its own. -/
def node? (inMapping : Bool) : Nat → List Token → Option (Yaml × List Token)
  | 0, _ => none
  | fuel + 1, tokens =>
    match tokens with
    | .scalar text quoted :: rest => some (.scalar text quoted, rest)
    | .blockSequence :: rest => (items? fuel rest).map fun (ys, rest) => (.sequence ys, rest)
    | .blockMapping :: rest => (members? fuel rest).map fun (ms, rest) => (.mapping ms, rest)
    | .flowSequence :: rest => (flowItems? fuel rest).map fun (ys, rest) => (.sequence ys, rest)
    | .flowMapping :: rest => (flowMembers? fuel rest).map fun (ms, rest) => (.mapping ms, rest)
    | .entry :: rest =>
      if inMapping then
        (flushItems? fuel (.entry :: rest)).map fun (ys, rest) => (.sequence ys, rest)
      else none
    | _ => none

/-- The items of a block sequence and its end. -/
def items? : Nat → List Token → Option (List Yaml × List Token)
  | 0, _ => none
  | _ + 1, .blockEnd :: rest => some ([], rest)
  | fuel + 1, .entry :: rest => do
    let (y, rest) ← if lacksEntry rest then some (absent, rest) else node? false fuel rest
    (items? fuel rest).map fun (ys, rest) => (y :: ys, rest)
  | _ + 1, _ => none

/-- The items of a sequence that is not indented. -/
def flushItems? : Nat → List Token → Option (List Yaml × List Token)
  | 0, _ => none
  | fuel + 1, .entry :: rest => do
    let (y, rest) ← if lacksFlushEntry rest then some (absent, rest) else node? false fuel rest
    (flushItems? fuel rest).map fun (ys, rest) => (y :: ys, rest)
  | _ + 1, rest => some ([], rest)

/-- The members of a block mapping and its end. -/
def members? : Nat → List Token → Option (List (Yaml × Yaml) × List Token)
  | 0, _ => none
  | _ + 1, .blockEnd :: rest => some ([], rest)
  | fuel + 1, .key :: rest => do
    let (k, rest) ← if lacksMember rest then some (absent, rest) else node? true fuel rest
    let (y, rest) ← match rest with
      | .value :: rest =>
        if lacksMember rest then some (absent, rest) else node? true fuel rest
      | rest => some (absent, rest)
    (members? fuel rest).map fun (ms, rest) => ((k, y) :: ms, rest)
  | _ + 1, _ => none

/-- The value behind a key in a flow collection. -/
def flowValue? (inMapping : Bool) : Nat → List Token → Option (Yaml × List Token)
  | 0, _ => none
  | fuel + 1, .value :: rest =>
    if lacksFlowPart inMapping rest then some (absent, rest) else node? false fuel rest
  | _ + 1, rest => some (absent, rest)

/-- The items of a flow sequence and its closing bracket; there may be a comma before it. -/
def flowItems? : Nat → List Token → Option (List Yaml × List Token)
  | 0, _ => none
  | _ + 1, .flowSequenceEnd :: rest => some ([], rest)
  | fuel + 1, tokens => do
    let (y, rest) ← match tokens with
      | .key :: rest => do
        let (k, rest) ←
          if lacksFlowPart false rest then some (absent, rest.drop 1)
          else node? false fuel rest
        let (y, rest) ← flowValue? false fuel rest
        some (.mapping [(k, y)], rest)
      | rest => node? false fuel rest
    match rest with
    | .comma :: rest => (flowItems? fuel rest).map fun (ys, rest) => (y :: ys, rest)
    | .flowSequenceEnd :: rest => some ([y], rest)
    | _ => none

/-- The members of a flow mapping and its closing bracket; there may be a comma before it. -/
def flowMembers? : Nat → List Token → Option (List (Yaml × Yaml) × List Token)
  | 0, _ => none
  | _ + 1, .flowMappingEnd :: rest => some ([], rest)
  | fuel + 1, tokens => do
    let (k, y, rest) ← match tokens with
      | .key :: rest => do
        let (k, rest) ←
          if lacksFlowPart true rest then some (absent, rest) else node? false fuel rest
        let (y, rest) ← flowValue? true fuel rest
        some (k, y, rest)
      | rest => (node? false fuel rest).map fun (k, rest) => (k, absent, rest)
    match rest with
    | .comma :: rest => (flowMembers? fuel rest).map fun (ms, rest) => ((k, y) :: ms, rest)
    | .flowMappingEnd :: rest => some ([(k, y)], rest)
    | _ => none

end

/-! ### Documents -/

/-- The marks behind a document. -/
def isDocumentEnd : Token → Bool
  | .documentEnd => true
  | _ => false

/-- The document of a sequence of tokens.  Nothing is an absent node, and so is nothing behind the
mark of a document. -/
def ofTokens? (tokens : List Token) : Option Yaml := do
  let (y, rest) ← match tokens with
    | [] | [.documentStart] => some (absent, [])
    | .documentStart :: .documentEnd :: rest => some (absent, .documentEnd :: rest)
    | .documentStart :: rest | rest => node? false (2 * rest.length + 2) rest
  if rest.all isDocumentEnd then some y else none

/-- Reads a document. -/
def ofText? (s : String) : Option Yaml :=
  (Token.ofText? s).bind ofTokens?

end DriveOverlay.Yaml

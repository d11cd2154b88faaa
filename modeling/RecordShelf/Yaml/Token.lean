import RecordShelf.Yaml.Scalar

/-!
# Tokens

A document is cut into tokens that make its structure explicit: block collections are opened and
closed by tokens, which follow from the indentation, and every key has a token before it. A key
without a mark of its own is known only by the colon after it, so a place where a key may have
started is a candidate until the colon comes, the line ends or the key becomes too long; the tokens
before the key are then put in at that place. Anchors, tags, directives and folded text are refused.
-/

namespace RecordShelf.Yaml

inductive Token where
  | documentStart
  | documentEnd
  | blockList
  | blockMap
  | blockEnd
  | flowList
  | flowListEnd
  | flowMap
  | flowMapEnd
  | item
  | comma
  | key
  | value
  | scalar (text : String) (plain : Bool)
  deriving DecidableEq, Repr

/-- A place where a key may have started. -/
structure Candidate where
  /-- How many tokens precede it. -/
  position : Nat
  line : Nat
  column : Nat
  /-- Whether nothing but a key can stand there. -/
  required : Bool

/-- The columns that a key without a mark may take. -/
def maxKeyLength : Nat := 1024

/-- What has been cut off a document. -/
structure Cutting where
  /-- Newest first. -/
  tokens : List Token
  /-- The open flow collections. -/
  flow : Nat
  /-- The columns of the open block collections, innermost first. -/
  indents : List Nat
  /-- Whether a key may start here. -/
  keyAllowed : Bool
  /-- A candidate for each open flow collection, innermost first, and one for what is around. -/
  candidates : List (Option Candidate)

namespace Cutting

def start : Cutting := ⟨[], 0, [], true, [none]⟩

def push (s : Cutting) (t : Token) : Cutting := { s with tokens := t :: s.tokens }

/-- Puts a token in so that `position` others precede it. -/
def insert (s : Cutting) (position : Nat) (t : Token) : Cutting :=
  let later := s.tokens.length - position
  { s with tokens := s.tokens.take later ++ t :: s.tokens.drop later }

/-- The least column of what belongs to the innermost block collection. -/
def least (s : Cutting) : Nat := s.indents.head?.elim 0 (· + 1)

def surroundings (s : Cutting) : Surroundings := ⟨0 < s.flow, s.least⟩

/-! ## Indentation -/

/-- Opens a block collection in a column unless one is open there. -/
def openBlock (s : Cutting) (position column : Nat) (t : Token) : Cutting :=
  if s.flow = 0 ∧ s.least ≤ column then
    { s.insert position t with indents := column :: s.indents }
  else s

def closeBlocks (column : Nat) : List Nat → List Token → List Nat × List Token
  | [], tokens => ([], tokens)
  | indent :: indents, tokens =>
    if column < indent then closeBlocks column indents (.blockEnd :: tokens)
    else (indent :: indents, tokens)

/-- Closes the block collections that start after a column. -/
def close (s : Cutting) (column : Nat) : Cutting :=
  if s.flow = 0 then
    let (indents, tokens) := closeBlocks column s.indents s.tokens
    { s with indents := indents, tokens := tokens }
  else s

/-- Closes all block collections. -/
def closeAll (s : Cutting) : Cutting :=
  if s.flow = 0 then
    { s with indents := [], tokens := List.replicate s.indents.length .blockEnd ++ s.tokens }
  else s

/-! ## Candidates -/

/-- Whether a colon at a cell can still make a key of a candidate. -/
def reaches (k : Candidate) (c : Cell) : Bool :=
  k.line == c.line && c.column ≤ k.column + maxKeyLength

/-- Drops the candidates that are too far away. -/
def dropFar (c : Cell) : List (Option Candidate) → Option (List (Option Candidate))
  | [] => some []
  | none :: rest => (dropFar c rest).map (none :: ·)
  | some k :: rest =>
    if reaches k c then (dropFar c rest).map (some k :: ·)
    else if k.required then none
    else (dropFar c rest).map (none :: ·)

/-- Drops the innermost candidate. -/
def dropCandidate? (s : Cutting) : Option Cutting :=
  match s.candidates with
  | some k :: rest => if k.required then none else some { s with candidates := none :: rest }
  | _ => some s

/-- Notes that a key may start at a cell, if it may. -/
def note? (s : Cutting) (c : Cell) : Option Cutting :=
  if s.keyAllowed then do
    let s ← s.dropCandidate?
    let required := s.flow == 0 && s.indents.head? == some c.column
    let k : Candidate := ⟨s.tokens.length, c.line, c.column, required⟩
    return { s with candidates := some k :: s.candidates.drop 1 }
  else some s

/-! ## Steps -/

/-- What is left to cut, after a step. -/
abbrev Rest := Option (Cutting × List Cell)

def openFlow (s : Cutting) (c : Cell) (t : Token) (cells : List Cell) : Rest := do
  let s ← s.note? c
  let s := { s.push t with candidates := none :: s.candidates, keyAllowed := true }
  return ({ s with flow := s.flow + 1 }, cells)

def closeFlow (s : Cutting) (t : Token) (cells : List Cell) : Rest := do
  let s ← s.dropCandidate?
  let s := s.push t
  if s.flow = 0 then return ({ s with keyAllowed := false }, cells)
  else
    return ({ s with
      flow := s.flow - 1, candidates := s.candidates.drop 1, keyAllowed := false }, cells)

def comma (s : Cutting) (cells : List Cell) : Rest := do
  let s ← s.dropCandidate?
  return ({ s.push .comma with keyAllowed := true }, cells)

/-- A dash before an item of a block list. -/
def dash (s : Cutting) (c : Cell) (cells : List Cell) : Rest :=
  if s.flow = 0 ∧ !s.keyAllowed then none
  else do
    let s ← (s.openBlock s.tokens.length c.column .blockList).dropCandidate?
    return ({ s.push .item with keyAllowed := true }, cells)

/-- A question mark before a key. -/
def keyMark (s : Cutting) (c : Cell) (cells : List Cell) : Rest :=
  if s.flow = 0 ∧ !s.keyAllowed then none
  else do
    let s ← (s.openBlock s.tokens.length c.column .blockMap).dropCandidate?
    return ({ s.push .key with keyAllowed := s.flow == 0 }, cells)

/-- A colon before a value. -/
def colon (s : Cutting) (c : Cell) (cells : List Cell) : Rest :=
  match s.candidates with
  | some k :: rest =>
    let s := (s.insert k.position .key).openBlock k.position k.column .blockMap
    some ({ s.push .value with candidates := none :: rest, keyAllowed := false }, cells)
  | _ =>
    if s.flow = 0 ∧ !s.keyAllowed then none
    else
      let s := s.openBlock s.tokens.length c.column .blockMap
      some ({ s.push .value with keyAllowed := s.flow == 0 }, cells)

/-- Three dashes or three dots. -/
def document (s : Cutting) (t : Token) (cells : List Cell) : Rest := do
  let s ← s.closeAll.dropCandidate?
  return ({ s.push t with keyAllowed := false }, cells.drop 2)

def literal (s : Cutting) (cells : List Cell) : Rest := do
  let s ← s.dropCandidate?
  let (text, rest) ← readLiteral? s.indents.head? cells
  return ({ s.push (.scalar text false) with keyAllowed := true }, rest)

def quoted (s : Cutting) (c : Cell) (cells : List Cell) : Rest := do
  let s ← s.note? c
  let (text, rest) ←
    if c.char = '\'' then readSingle [] .empty cells
    else readDouble (cells.length + 1) [] .empty cells
  return ({ s.push (.scalar text false) with keyAllowed := false }, rest)

def plain (s : Cutting) (c : Cell) (cells : List Cell) : Rest := do
  let s ← s.note? c
  let found ← readPlain s.surroundings [] .empty (c :: cells)
  return ({ s.push (.scalar found.text true) with keyAllowed := found.lineEnded }, found.after)

/-- Cuts off the token at a cell. -/
def cut (s : Cutting) (c : Cell) (cells : List Cell) : Rest :=
  let inFlow := 0 < s.flow
  if Cell.isMarker '-' (c :: cells) then s.document .documentStart cells
  else if Cell.isMarker '.' (c :: cells) then s.document .documentEnd cells
  else if c.char = '[' then s.openFlow c .flowList cells
  else if c.char = '\x7b' then s.openFlow c .flowMap cells
  else if c.char = ']' then s.closeFlow .flowListEnd cells
  else if c.char = '\x7d' then s.closeFlow .flowMapEnd cells
  else if c.char = ',' then s.comma cells
  else if c.char = '-' ∧ Cell.blankNext cells then s.dash c cells
  else if c.char = '?' ∧ (inFlow ∨ Cell.blankNext cells) then s.keyMark c cells
  else if c.char = ':' ∧ (inFlow ∨ Cell.blankNext cells) then s.colon c cells
  else if c.char = '|' ∧ !inFlow then s.literal cells
  else if c.char = '\'' ∨ c.char = '"' then s.quoted c cells
  else if startsPlain inFlow (c :: cells) then s.plain c cells
  else none

/-- Passes blanks, line ends and comments up to the next token. Where a block key may start no tab
may stand before it, and after a line end one may. -/
def pass (s : Cutting) (comment : Bool) : List Cell → Cutting × List Cell
  | [] => (s, [])
  | c :: cells =>
    if c.isBreak then pass { s with keyAllowed := s.keyAllowed || s.flow == 0 } false cells
    else if comment then pass s true cells
    else if c.char = ' ' ∨ c.char = '\t' ∧ (0 < s.flow ∨ !s.keyAllowed) then pass s false cells
    else if c.char = '#' then pass s true cells
    else (s, c :: cells)

/-- Cuts the rest of a document; `fuel` is more than the number of its cells. -/
def run : Nat → Cutting → List Cell → Option Cutting
  | 0, _, _ => none
  | fuel + 1, s, cells =>
    match s.pass false cells with
    | (s, []) =>
      if s.candidates.any fun k => k.any (·.required) then none else some s.closeAll
    | (s, c :: rest) => do
      let candidates ← dropFar c s.candidates
      let (s, rest) ← ({ s with candidates := candidates }.close c.column).cut c rest
      run fuel s rest

end Cutting

/-- The tokens of a text. -/
def Token.ofText? (text : String) : Option (List Token) := do
  let cells ← Cell.ofText? text
  let s ← Cutting.run (cells.length + 1) .start cells
  return s.tokens.reverse

end RecordShelf.Yaml

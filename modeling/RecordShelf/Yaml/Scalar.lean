import RecordShelf.Yaml.Basic
import RecordShelf.Yaml.Cell

/-!
# Reading scalars

A scalar is plain, between single or double quotes, or a literal of whole lines. Outside literals a
line end between two words is folded into a space; `Gap.text` says how.
-/

namespace RecordShelf.Yaml

/-- What stands between two words. -/
inductive Gap where
  /-- Blanks on one line, newest first. -/
  | blanks (read : List Char)
  /-- A line end, or none if a backslash took it away, and the line ends after it, newest first. -/
  | lines (first : Option Char) (more : List Char)

namespace Gap

def empty : Gap := .blanks []

/-- What a gap adds to a text, newest first: one line feed is a space, and the first one of several
counts for nothing. -/
def text : Gap → List Char
  | .blanks read => read
  | .lines (some '\n') [] => [' ']
  | .lines (some '\n') more => more
  | .lines first more => more ++ first.toList

/-- Blanks count on the line of the word before them only. -/
def blank (g : Gap) (c : Char) : Gap :=
  match g with
  | .blanks read => .blanks (c :: read)
  | .lines first more => .lines first more

def lineEnd (g : Gap) (c : Char) : Gap :=
  match g with
  | .blanks _ => .lines (some c) []
  | .lines first more => .lines first (c :: more)

def hasLineEnd : Gap → Bool
  | .blanks _ => false
  | .lines .. => true

def isEmpty : Gap → Bool
  | .blanks read => read.isEmpty
  | .lines .. => false

/-- The gap with a blank or a line end more. -/
def extend (g : Gap) (c : Cell) : Gap := if c.isBreak then g.lineEnd c.char else g.blank c.char

end Gap

/-! ## Quoted text -/

/-- The rest of a text in single quotes; two quotes stand for one. `read` is what has been read,
newest first. -/
def readSingle (read : List Char) (gap : Gap) : List Cell → Option (String × List Cell)
  | [] => none
  | c :: cells =>
    if Cell.isDocumentMarker (c :: cells) then none
    else if c.isBlank || c.isBreak then readSingle read (gap.extend c) cells
    else if c.char ≠ '\'' then readSingle (c.char :: gap.text ++ read) .empty cells
    else
      match cells with
      | ⟨'\'', _, _⟩ :: cells => readSingle ('\'' :: gap.text ++ read) .empty cells
      | cells => some (String.ofList (gap.text ++ read).reverse, cells)

/-- The character that stands after a backslash for another one. -/
def escaped? : Char → Option Char
  | '0' => some '\x00'
  | 'a' => some '\x07'
  | 'b' => some '\x08'
  | 't' | '\t' => some '\t'
  | 'n' => some '\n'
  | 'v' => some '\x0b'
  | 'f' => some '\x0c'
  | 'r' => some '\r'
  | 'e' => some '\x1b'
  | ' ' => some ' '
  | '"' => some '"'
  | '/' => some '/'
  | '\\' => some '\\'
  | 'N' => some '\x85'
  | '_' => some '\xa0'
  | 'L' => some '\u2028'
  | 'P' => some '\u2029'
  | _ => none

/-- How many hexadecimal digits follow. -/
def hexLength? : Char → Option Nat
  | 'x' => some 2
  | 'u' => some 4
  | 'U' => some 8
  | _ => none

def hexChar? (cells : List Cell) : Option Char := do
  let n ← readDigits? 16 (cells.map (·.char))
  if n.isValidChar then return Char.ofNat n else none

/-- The character that follows a backslash, and what stands after it. -/
def readEscape? : List Cell → Option (Char × List Cell)
  | [] => none
  | c :: cells =>
    match hexLength? c.char with
    | some n => if cells.length < n then none else (hexChar? (cells.take n)).map (·, cells.drop n)
    | none => (escaped? c.char).map (·, cells)

/-- The rest of a text in double quotes. A backslash before a line end takes it away. -/
def readDouble : Nat → List Char → Gap → List Cell → Option (String × List Cell)
  | 0, _, _, _ => none
  | _ + 1, _, _, [] => none
  | fuel + 1, read, gap, c :: cells =>
    if Cell.isDocumentMarker (c :: cells) then none
    else if c.isBlank || c.isBreak then readDouble fuel read (gap.extend c) cells
    else if c.char = '"' then some (String.ofList (gap.text ++ read).reverse, cells)
    else if c.char ≠ '\\' then readDouble fuel (c.char :: gap.text ++ read) .empty cells
    else if cells.head?.any Cell.isBreak then
      readDouble fuel (gap.text ++ read) (.lines none []) (cells.drop 1)
    else
      match readEscape? cells with
      | some (d, cells) => readDouble fuel (d :: gap.text ++ read) .empty cells
      | none => none

/-! ## Plain text -/

/-- Where plain text stands. -/
structure Surroundings where
  /-- Inside a flow collection. -/
  flow : Bool
  /-- The least column of its further lines, outside of one. -/
  least : Nat

def flowMarks : List Char := [',', '[', ']', '\x7b', '\x7d']

/-- Whether plain text can start here. -/
def startsPlain (flow : Bool) : List Cell → Bool
  | [] => false
  | c :: cells =>
    if c.char = '-' then !Cell.blankNext cells
    else if c.char = '?' ∨ c.char = ':' then !flow && !Cell.blankNext cells
    else !(c.isBlank || c.isBreak || "#&*!|>'\"%@\x60".toList.contains c.char ||
      flowMarks.contains c.char)

/-- Whether a word ends before these cells. -/
def endsWord (s : Surroundings) : List Cell → Bool
  | [] => true
  | c :: cells =>
    (c.char == ':' && Cell.blankNext cells) || (s.flow && flowMarks.contains c.char)

/-- Whether plain text ends at a gap before these cells. -/
def endsText (s : Surroundings) : List Cell → Bool
  | [] => true
  | c :: cells =>
    (!s.flow && c.column < s.least) || c.char == '#' || Cell.isDocumentMarker (c :: cells)

/-- A colon that plain text may not hold inside a flow collection. -/
def isStrayColon (s : Surroundings) : List Cell → Bool
  | [] => false
  | c :: cells => s.flow && c.char == ':' && Cell.nextIn ('?' :: flowMarks) cells

/-- Plain text as it was read. -/
structure PlainText where
  text : String
  /-- Whether a line end follows it. -/
  lineEnded : Bool
  /-- What follows it and the blanks after it. -/
  after : List Cell

/-- The rest of a plain text. A tab may not stand in the place of its indentation. -/
def readPlain (s : Surroundings) (read : List Char) (gap : Gap) : List Cell → Option PlainText
  | [] => some ⟨String.ofList read.reverse, gap.hasLineEnd, []⟩
  | c :: cells =>
    if c.isBlank || c.isBreak then
      if gap.hasLineEnd && c.char == '\t' && c.column < s.least then none
      else readPlain s read (gap.extend c) cells
    else if !gap.isEmpty && endsText s (c :: cells) then
      some ⟨String.ofList read.reverse, gap.hasLineEnd, c :: cells⟩
    else if isStrayColon s (c :: cells) then none
    else if endsWord s (c :: cells) then
      some ⟨String.ofList read.reverse, gap.hasLineEnd, c :: cells⟩
    else readPlain s (c.char :: gap.text ++ read) .empty cells

/-! ## Literals -/

/-- How many line ends at the end of a literal count. -/
inductive Chomp where
  | strip
  | clip
  | keep

/-- A sign that tells which line ends count. -/
def takeChomp : List Cell → Option Chomp × List Cell
  | ⟨'-', _, _⟩ :: cells => (some .strip, cells)
  | ⟨'+', _, _⟩ :: cells => (some .keep, cells)
  | cells => (none, cells)

/-- A digit that gives the indentation. -/
def takeIndent : List Cell → Option Nat × List Cell
  | c :: cells =>
    if '1' ≤ c.char ∧ c.char ≤ '9' then (some (c.char.toNat - 48), cells) else (none, c :: cells)
  | [] => (none, [])

/-- The marks after the bar, in either order. -/
def literalHeader (cells : List Cell) : (Option Nat × Chomp) × List Cell :=
  let (first, cells) := takeChomp cells
  let (indent, cells) := takeIndent cells
  match first with
  | some chomp => ((indent, chomp), cells)
  | none =>
    let (second, cells) := takeChomp cells
    ((indent, second.getD .clip), cells)

/-- Empty lines and the indentation of the next line. -/
structure Margin where
  /-- The line ends of the empty lines, newest first. -/
  breaks : List Char
  /-- The greatest indentation that was met. -/
  deepest : Nat
  after : List Cell

/-- Passes empty lines and an indentation of at most `indent` columns. A tab may not stand in its
place. -/
def readMargin (indent : Option Nat) (m : Margin) : List Cell → Option Margin
  | [] => some { m with after := [] }
  | c :: cells =>
    let within := indent.all (c.column < ·)
    let m := { m with deepest := max m.deepest c.column }
    if c.char = ' ' ∧ within then
      readMargin indent { m with deepest := max m.deepest (c.column + 1) } cells
    else if c.char = '\t' ∧ within then none
    else if c.isBreak then readMargin indent { m with breaks := c.char :: m.breaks } cells
    else some { m with after := c :: cells }

/-- A literal while it is read: its lines, newest character first, and the line ends that count if
another line follows. -/
structure LiteralText where
  read : List Char
  lineEnd : List Char
  margin : Margin

/-- Reads lines as long as they start in the literal's column. -/
def readLines (indent : Nat) : Nat → LiteralText → Option LiteralText
  | 0, t => some t
  | fuel + 1, t =>
    match t.margin.after with
    | [] => some t
    | c :: cells =>
      if c.column ≠ indent then some t
      else
        let line := (c :: cells).takeWhile (!·.isBreak)
        let rest := (c :: cells).drop line.length
        let read := (line.map (·.char)).reverse ++ t.margin.breaks ++ t.lineEnd ++ t.read
        match readMargin (some indent) ⟨[], 0, []⟩ (rest.drop 1) with
        | none => none
        | some margin => readLines indent fuel ⟨read, (rest.take 1).map (·.char), margin⟩

def LiteralText.result (t : LiteralText) : Chomp → String
  | .strip => String.ofList t.read.reverse
  | .clip => String.ofList (t.lineEnd ++ t.read).reverse
  | .keep => String.ofList (t.margin.breaks ++ t.lineEnd ++ t.read).reverse

/-- What follows the line of the bar, if the line holds nothing else but a comment. -/
def afterBar? (cells : List Cell) : Option (List Cell) :=
  match cells.dropWhile Cell.isBlank with
  | [] => some []
  | c :: cells =>
    if c.isBreak then some cells
    else if c.char = '#' then some ((cells.dropWhile (!·.isBreak)).drop 1)
    else none

/-- A literal after its bar; `outer` is the column of the collection around it. -/
def readLiteral? (outer : Option Nat) (cells : List Cell) : Option (String × List Cell) := do
  let ((mark, chomp), rest) := literalHeader cells
  let body ← afterBar? rest
  let given := mark.map (outer.getD 0 + ·)
  let margin ← readMargin given ⟨[], 0, []⟩ body
  let indent := given.getD (max margin.deepest (max 1 (outer.elim 0 (· + 1))))
  let t ← readLines indent (body.length + 1) ⟨[], [], margin⟩
  return (t.result chomp, t.margin.after)

end RecordShelf.Yaml

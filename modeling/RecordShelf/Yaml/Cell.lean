/-!
# Text with positions

A document is read as a list of cells, characters with the line and the column in which they stand,
so that indentation can be told anywhere.
-/

namespace RecordShelf.Yaml

structure Cell where
  char : Char
  line : Nat
  column : Nat

/-- Characters that a document may hold. -/
def isAllowed (c : Char) : Bool :=
  c == '\t' || c == '\n' || c == '\r' || (' ' ≤ c && c ≤ '~') || c == '\x85' ||
    ('\xa0' ≤ c && c != '\ufffe' && c != '\uffff')

/-- Line ends of all kinds as line feeds; the separators of lines and of paragraphs stay what they
are. -/
def plainBreaks : List Char → List Char
  | '\r' :: '\n' :: cs => '\n' :: plainBreaks cs
  | '\r' :: cs => '\n' :: plainBreaks cs
  | '\x85' :: cs => '\n' :: plainBreaks cs
  | c :: cs => c :: plainBreaks cs
  | [] => []

namespace Cell

/-- Whether the cell ends its line. -/
def isBreak (c : Cell) : Bool := c.char == '\n' || c.char == '\u2028' || c.char == '\u2029'

def isBlank (c : Cell) : Bool := c.char == ' ' || c.char == '\t'

/-- Characters with their positions, from a position on. -/
def locate (line column : Nat) : List Char → List Cell
  | [] => []
  | c :: cs =>
    let cell : Cell := ⟨c, line, column⟩
    cell :: if cell.isBreak then locate (line + 1) 0 cs else locate line (column + 1) cs

/-- The cells of a text, unless it holds a character that no document may hold. A byte order mark
at its start is passed over and keeps its column. -/
def ofText? (text : String) : Option (List Cell) :=
  if text.toList.all isAllowed then
    match locate 0 0 (plainBreaks text.toList) with
    | c :: cells => some (if c.char = '\ufeff' then cells else c :: cells)
    | [] => some []
  else none

/-- Whether nothing but a blank, a line end or the end follows. -/
def blankNext : List Cell → Bool
  | [] => true
  | c :: _ => c.isBlank || c.isBreak

/-- Whether one of some characters follows. -/
def nextIn (marks : List Char) : List Cell → Bool
  | [] => false
  | c :: _ => marks.contains c.char

/-- Three equal marks in the first column. -/
def isMarker (mark : Char) : List Cell → Bool
  | a :: b :: c :: cells =>
    a.column == 0 && a.char == mark && b.char == mark && c.char == mark && blankNext cells
  | _ => false

/-- The start or the end of a document. -/
def isDocumentMarker (cells : List Cell) : Bool := isMarker '-' cells || isMarker '.' cells

end Cell

end RecordShelf.Yaml

import RecordShelf.Yaml.Basic

/-!
# Writing YAML

A document is written in block style, two columns to a level, with lists in the column of their key.
`styleOf` chooses how a scalar is written: plain if it reads back as itself, between single quotes
if plain text would mean something else, as a literal if it has several lines, and between double
quotes if only escapes can keep it.
-/

namespace RecordShelf.Yaml

/-! ## What a text holds -/

/-- Characters that are written as they are. -/
def isPrintable (c : Char) : Bool :=
  c == '\n' || (' ' ≤ c && c ≤ '~') ||
    ('\xa0' ≤ c && c != '\ufeff' && c != '\ufffe' && c != '\uffff')

def isBreak (c : Char) : Bool :=
  c == '\n' || c == '\r' || c == '\x85' || c == '\u2028' || c == '\u2029'

/-- Whether nothing but a blank or a line end follows. -/
def spaceNext : List Char → Bool
  | [] => true
  | c :: _ => c == ' ' || c == '\t' || isBreak c

/-- Marks that mean something inside plain text: a colon before a blank, a number sign after one. -/
def hasMark (afterBlank : Bool) : List Char → Bool
  | [] => false
  | c :: cs =>
    (c == ':' && spaceNext cs) || (c == '#' && afterBlank) || hasMark (spaceNext [c]) cs

/-- Text whose start means something. -/
def startsWithMark : List Char → Bool
  | [] => false
  | c :: cs =>
    "#,[]\x7b\x7d&*!|>'\"%@\x60".toList.contains c ||
      ((c == '?' || c == ':' || c == '-') && spaceNext cs) ||
      (c :: cs).take 3 == ['-', '-', '-'] || (c :: cs).take 3 == ['.', '.', '.']

/-- A space right before a line end. -/
def hasSpaceBreak : List Char → Bool
  | a :: b :: cs => (a == ' ' && isBreak b) || hasSpaceBreak (b :: cs)
  | _ => false

/-- A space right after a line end. -/
def hasBreakSpace : List Char → Bool
  | a :: b :: cs => (isBreak a && b == ' ') || hasBreakSpace (b :: cs)
  | _ => false

/-! ## Styles -/

inductive Style where
  | plain
  | single
  | double
  | literal
  deriving DecidableEq, Repr

/-- Text that keeps its lines between single quotes. -/
def allowsSingle (cs : List Char) : Bool :=
  cs.all isPrintable && !hasSpaceBreak cs && !hasBreakSpace cs

/-- Text that means itself when it is written plain. -/
def allowsPlain (cs : List Char) : Bool :=
  cs.all isPrintable && !(startsWithMark cs || hasMark true cs || cs.any isBreak ||
    cs.head? == some ' ' || cs.getLast? == some ' ')

/-- Text that keeps its lines in a literal. -/
def allowsLiteral (cs : List Char) : Bool :=
  !cs.isEmpty && cs.all isPrintable && !hasSpaceBreak cs && cs.getLast? != some ' '

/-- The style of a text; `plain` tells that it stands for a number, a truth value or null. -/
def styleOf (text : String) (plain : Bool) : Style :=
  let cs := text.toList
  if cs.contains '\n' then if allowsLiteral cs then .literal else .double
  else if (plain || !needsQuotes text) && allowsPlain cs then .plain
  else if allowsSingle cs then .single
  else .double

/-! ## Scalars -/

def blanks (count : Nat) : List Char := List.replicate count ' '

/-- A text whose lines start in a column, empty ones apart. `fresh` tells whether a line starts. -/
def indentLines (column : Nat) (fresh : Bool) : List Char → List Char
  | [] => []
  | c :: cs =>
    if isBreak c then c :: indentLines column true cs
    else (if fresh then blanks column else []) ++ c :: indentLines column false cs

def hexUpper (digits n : Nat) : List Char :=
  let ds := (Nat.toDigits 16 n).map Char.toUpper
  List.replicate (digits - ds.length) '0' ++ ds

/-- A character between double quotes. -/
def escape (c : Char) : List Char :=
  if isPrintable c && !isBreak c && c != '"' && c != '\\' then [c]
  else
    match c with
    | '\x00' => ['\\', '0']
    | '\x07' => ['\\', 'a']
    | '\x08' => ['\\', 'b']
    | '\t' => ['\\', 't']
    | '\n' => ['\\', 'n']
    | '\x0b' => ['\\', 'v']
    | '\x0c' => ['\\', 'f']
    | '\r' => ['\\', 'r']
    | '\x1b' => ['\\', 'e']
    | '"' => ['\\', '"']
    | '\\' => ['\\', '\\']
    | '\x85' => ['\\', 'N']
    | '\u2028' => ['\\', 'L']
    | '\u2029' => ['\\', 'P']
    | c =>
      if c.toNat < 256 then '\\' :: 'x' :: hexUpper 2 c.toNat
      else if c.toNat < 65536 then '\\' :: 'u' :: hexUpper 4 c.toNat
      else '\\' :: 'U' :: hexUpper 8 c.toNat

def inDouble (cs : List Char) : List Char := '"' :: (cs.flatMap escape ++ ['"'])

/-- A text between single quotes, a quote written twice. -/
def inSingle (column : Nat) (cs : List Char) : List Char :=
  let doubled := cs.flatMap fun c => if c = '\'' then ['\'', '\''] else [c]
  '\'' :: indentLines column false (doubled ++ ['\''])

/-- The bar of a literal. A digit tells the indentation if the first line does not, and a sign which
line ends at the end count. -/
def literalBar (cs : List Char) : List Char :=
  let indent := if cs.head?.any fun c => c == ' ' || isBreak c then ['2'] else []
  let chomp :=
    match cs.reverse with
    | [] => ['-']
    | [c] => if isBreak c then ['+'] else ['-']
    | c :: d :: _ => if !isBreak c then ['-'] else if isBreak d then ['+'] else []
  '|' :: (indent ++ chomp)

def inLiteral (column : Nat) (cs : List Char) : List Char :=
  literalBar cs ++ '\n' :: indentLines column true cs

/-- A scalar whose further lines start in a column. -/
def scalarText (column : Nat) (text : String) (plain : Bool) : List Char :=
  match styleOf text plain with
  | .plain => text.toList
  | .single => inSingle column text.toList
  | .double => inDouble text.toList
  | .literal => inLiteral column text.toList

/-! ## Nodes -/

/-- Ends a line, unless the text ends with a line end of its own. -/
def endLine (cs : List Char) : List Char := if cs.getLast?.any isBreak then cs else cs ++ ['\n']

/-- What follows a mark on its line. -/
def afterMark (cs : List Char) : List Char := if cs.isEmpty then [] else ' ' :: cs

/-- The bytes that a key without a mark of its own may take. -/
def maxKeySize : Nat := 128

/-- A key in a column, up to the colon; one that is long or has several lines needs a mark. -/
def keyText (column : Nat) (key : String) : List Char :=
  let text := scalarText (column + 2) key false
  if key.toList.any isBreak || maxKeySize < key.utf8ByteSize then
    '?' :: (endLine (afterMark text) ++ blanks column ++ [':'])
  else text ++ [':']

mutual

/-- The lines of a node that starts in a column. -/
def nodeText (column : Nat) : Yaml → List Char
  | .scalar text plain => endLine (blanks column ++ scalarText column text plain)
  | .list [] => endLine (blanks column ++ ['[', ']'])
  | .map [] => endLine (blanks column ++ ['\x7b', '\x7d'])
  | .list items => itemsText column items
  | .map entries => entriesText column entries

/-- The lines of items, each after a dash in a column. -/
def itemsText (column : Nat) : List Yaml → List Char
  | [] => []
  | item :: items =>
    blanks column ++ '-' :: ' ' :: (nodeText (column + 2) item).drop (column + 2) ++
      itemsText column items

/-- The lines of entries whose keys start in a column. -/
def entriesText (column : Nat) : List (String × Yaml) → List Char
  | [] => []
  | (key, value) :: entries =>
    blanks column ++ keyText column key ++ valueText column value ++ entriesText column entries

/-- What follows the colon after a key in a column. -/
def valueText (column : Nat) : Yaml → List Char
  | .scalar text plain => endLine (afterMark (scalarText (column + 2) text plain))
  | .list [] => [' ', '[', ']', '\n']
  | .map [] => [' ', '\x7b', '\x7d', '\n']
  | .list items => '\n' :: itemsText column items
  | .map entries => '\n' :: entriesText (column + 2) entries

end

/-- A node as the text of a document. -/
def write (node : Yaml) : String := String.ofList (nodeText 0 node)

end RecordShelf.Yaml

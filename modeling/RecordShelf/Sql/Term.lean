import RecordShelf.Number.Decimal
import RecordShelf.Sql.Reader
import RecordShelf.Sql.TopLevel
import RecordShelf.Text.LowerCase

/-!
# Terms

The grammar of what clauses are made of: names, operands, select items, order items, assignments
and conditions. Names are folded to lower case. A condition that cannot be read is kept as text.
-/

namespace RecordShelf.Sql
open Text

namespace Reader

def bareName : Reader (List Char) := run1 isWord

/-- A name, bare or between backticks. -/
def identifier : Reader String := do
  let quotedName : Reader (List Char) := do
    let _ ← char '`'
    let name ← bareName
    let _ ← char '`'
    return name
  let name ← either quotedName bareName
  return String.ofList (lowerCase name)

def placeholder : Reader Placeholder :=
  either
    (do let _ ← char '?'; return .positional)
    (do let _ ← char ':'; let name ← run1 isWord; return .named (String.ofList name))

/-- A sign and digits. -/
def signedDigits : Reader (Bool × List Char) := do
  let sign ← optional (char '-')
  let digits ← run1 Char.isDigit
  return (sign.isSome, digits)

def float : Reader Double := do
  let (negative, whole) ← signedDigits
  let _ ← char '.'
  let fraction ← run1 Char.isDigit
  return (Decimal.ofParts negative whole fraction 0).toDouble

/-- The integer of a sign and digits, if it has 64 bits. -/
def int64OfDigits? (n : Bool × List Char) : Option Int64 :=
  readInt64? (if n.1 then '-' :: n.2 else n.2)

def int : Reader Int64 := filterMap signedDigits int64OfDigits?

/-- The characters of a string before its closing quote: a doubled quote is a quote, and a
backslash takes the next character, a line feed for `n` and a tab for `t`. -/
def stringChars (q : Char) : List Char → List Char × List Char
  | [] => ([], [])
  | '\\' :: c :: rest =>
    let (s, rest) := stringChars q rest
    ((if c = 'n' then '\n' else if c = 't' then '\t' else c) :: s, rest)
  | c :: d :: rest =>
    if c = q then
      if d = q then
        let (s, rest) := stringChars q rest
        (q :: s, rest)
      else ([], c :: d :: rest)
    else
      let (s, rest) := stringChars q (d :: rest)
      (c :: s, rest)
  | [c] => if c = q ∨ c = '\\' then ([], [c]) else ([c], [])

def quotedBy (q : Char) : Reader String := do
  let _ ← char q
  let s ← (fun cs => .ok (stringChars q cs) : Reader (List Char))
  let _ ← char q
  return String.ofList s

def string : Reader String := either (quotedBy '\'') (quotedBy '"')

def literal : Reader Literal :=
  either (do keyword "null"; return .null) <|
  either (do keyword "true"; return .bool true) <|
  either (do keyword "false"; return .bool false) <|
  either (Literal.float <$> float) <|
  either (Literal.int <$> int) <|
  Literal.string <$> string

def operand : Reader Operand :=
  either (Operand.placeholder <$> placeholder) (Operand.literal <$> literal)

/-- The count of a select list with its label. -/
def count : Reader (Option String) := do
  keyword "count"
  let _ ← blanks
  let _ ← char '('
  let _ ← blanks
  let _ ← either (char '*') (char '1')
  let _ ← blanks
  let _ ← char ')'
  optional do
    let _ ← blanks1
    let _ ← optional do
      keyword "as"
      let _ ← blanks1
    identifier

def orderItem : Reader OrderItem := do
  let column ← identifier
  let direction ← optional do
    let _ ← blanks1
    either (do keyword "asc"; return Direction.ascending)
      (do keyword "desc"; return .descending)
  return ⟨column, direction.getD .ascending⟩

def assignment : Reader Assignment := do
  let column ← identifier
  let _ ← blanks
  let _ ← char '='
  let _ ← blanks
  let value ← operand
  return ⟨column, value⟩

def compareOp : Reader CompareOp :=
  either (do text ['<', '=']; return .le) <|
  either (do text ['>', '=']; return .ge) <|
  either (do either (text ['!', '=']) (text ['<', '>']); return .ne) <|
  either (do text ['=']; return .eq) <|
  either (do text ['<']; return .lt) <|
  (do text ['>']; return .gt)

/-- NOT and blanks, if they come next. -/
def negation : Reader Bool := do
  let word ← optional do
    keyword "not"
    let _ ← blanks1
  return word.isSome

def isNull : Reader Condition := do
  let field ← identifier
  let _ ← blanks1
  keyword "is"
  let _ ← blanks1
  let negated ← negation
  keyword "null"
  return .isNull field negated

def like : Reader Condition := do
  let field ← identifier
  let _ ← blanks1
  let negated ← negation
  keyword "like"
  let _ ← blanks
  let value ← operand
  return .compare field (if negated then .notLike else .like) value

def comparison : Reader Condition := do
  let field ← identifier
  let _ ← blanks
  let op ← compareOp
  let _ ← blanks
  let value ← operand
  return .compare field op value

def condition : Reader Condition := do
  let _ ← blanks
  let c ← either isNull (either like comparison)
  let _ ← blanks
  return c

/-- Names between parentheses, separated by commas. -/
def names : Nat → Reader (List String)
  | 0 => do return [← identifier]
  | fuel + 1 => do
    let name ← identifier
    let rest ← optional do
      let _ ← blanks
      let _ ← char ','
      let _ ← blanks
      names fuel
    return name :: rest.getD []

def columnList : Reader (List String) := fun cs => (do
  let _ ← char '('
  let _ ← blanks
  let columns ← names cs.length
  let _ ← blanks
  let _ ← char ')'
  return columns : Reader (List String)) cs

end Reader

/-- One item of a select list. -/
def Column.ofText (cs : List Char) : Column :=
  if cs = ['*'] then .star
  else
    match Reader.whole? .count cs with
    | some label => .count label
    | none =>
      match Reader.whole? .identifier cs with
      | some name => .field name
      | none => .other (String.ofList cs)

/-- One term of a condition. -/
def Condition.ofText (cs : List Char) : Condition :=
  (Reader.whole? .condition cs).getD (.unread (String.ofList cs) (placeholders cs))

end RecordShelf.Sql

import RecordShelf.Sql.Clause
import RecordShelf.Sql.ParseError
import RecordShelf.Sql.Term

/-!
# Parsing a statement

The leading words give the kind. Each kind then reads its table, finds its keywords in top-level
code and reads the parts between them.
-/

namespace RecordShelf.Sql
open Text

/-- The result of reading part of a statement. -/
abbrev Part (α : Type) := Except Malformation α

/-- A reader's failure as a malformation. -/
def Part.ofReader {α : Type} (result : Except (List Char) α) : Part α :=
  result.mapError Malformation.ofRest

namespace Reader

/-- Two words with blanks between them. -/
def twoWords (first second : String) : Reader Unit := do
  keyword first
  let _ ← blanks1
  keyword second

/-- The kind of a statement by its leading words. -/
def leading : Reader StatementKind :=
  either (do twoWords "insert" "into"; return .insert) <|
  either (do keyword "select"; return .select) <|
  either (do keyword "update"; return .update) <|
  either (do keyword "delete"; return .delete) <|
  either (do twoWords "create" "table"; return .createTable) <|
  (do twoWords "show" "tables"; return .showTables)

/-- A name after optional blanks. -/
def tableName : Reader String := do
  let _ ← blanks
  identifier

def deleteTable : Reader String := do
  let _ ← blanks1
  keyword "from"
  let _ ← blanks1
  identifier

def ifNotExists : Reader Unit := do
  keyword "if"
  let _ ← blanks1
  keyword "not"
  let _ ← blanks1
  keyword "exists"
  let _ ← blanks1
  return ()

def createdTable : Reader CreateTable := do
  let _ ← blanks1
  let guarded ← optional ifNotExists
  let name ← identifier
  return ⟨name, guarded.isSome⟩

/-- A keyword and the blanks after it. -/
def opening (word : String) : Reader Unit := do
  keyword word
  let _ ← blanks
  return ()

end Reader

/-- An operand that is a whole clause part. -/
def wholeOperand (cs : List Char) : Part Operand :=
  .ofReader (Reader.whole .operand (trim cs))

/-- The terms of a WHERE body, if there is one. -/
def conditionsOf (body : Option (List Char)) : List Condition :=
  match body with
  | some cs => (splitConjunction cs).map Condition.ofText
  | none => []

def columnsOf (cs : List Char) : List Column :=
  if (trim cs).isEmpty then [] else (splitTopLevel ',' (trim cs)).map Column.ofText

/-- Order items that cannot be read are left out. -/
def orderOf (body : Option (List Char)) : List OrderItem :=
  match body with
  | some cs => (splitTopLevel ',' cs).filterMap (Reader.whole? .orderItem)
  | none => []

def limitOf (body : List Char) : Part Limit :=
  match splitTopLevel ',' body with
  | [count] => return ⟨none, ← wholeOperand count⟩
  | [offset, count] => return ⟨some (← wholeOperand offset), ← wholeOperand count⟩
  | _ => throw (.unreadableLimit (String.ofList body))

/-- Reads a part that may be absent. -/
def optionalPart {α : Type} (read : List Char → Part α) : Option (List Char) → Part (Option α)
  | some cs => some <$> read cs
  | none => return none

def parseSelect (rest : List Char) : Part Select := do
  let some (start, stop) := findKeyword ["from".toList] rest | throw .missingFrom
  let (table, tail) ← .ofReader (Reader.tableName (rest.drop stop))
  let clauses := Clauses.ofText tail
  let limit ← optionalPart limitOf (clauses.body? .limit)
  let offset ← optionalPart wholeOperand (clauses.body? .offset)
  return {
    columns := columnsOf (rest.take start)
    table := table
    conditions := conditionsOf (clauses.body? .where_)
    order := orderOf (clauses.body? .orderBy)
    limit := limit
    offset := offset }

/-- The text between the first and the last character, if these are parentheses. -/
def parenthesized? (cs : List Char) : Option (List Char) :=
  match cs with
  | '(' :: rest => if rest.getLast? = some ')' then some rest.dropLast else none
  | _ => none

/-- Operands between parentheses; one item that is no operand spoils the list. -/
def operandList? (cs : List Char) : Option (List Operand) := do
  let inner ← parenthesized? (trim cs)
  (splitTopLevel ',' inner).mapM (Reader.whole? .operand)

/-- Columns with their values; values that cannot be read or do not pair up are dropped. -/
def columnSource (body : List Char) : Part InsertSource := do
  let (columns, after) ← .ofReader (Reader.columnList body)
  let values := do
    let (_, stop) ← findKeyword ["values".toList] after
    let values ← operandList? (after.drop stop)
    if values.length = columns.length then some values else none
  return .columns columns values

/-- One placeholder stands for a whole record; else every item is an assignment. -/
def setSource (cs : List Char) : Part InsertSource :=
  let body := trim cs
  match Reader.whole? .placeholder body with
  | some _ => return .object
  | none =>
    .assignments <$> (splitTopLevel ',' body).mapM fun item =>
      .ofReader (Reader.whole .assignment item)

/-- The source of an insertion from its body. -/
def insertSource (body : List Char) : Part InsertSource :=
  if body.isEmpty then return .object
  else if body.head? = some '(' then columnSource body
  else
    match Reader.opening "set" body with
    | .ok (_, rest) => setSource rest
    | .error _ =>
      match Reader.opening "values" body with
      | .ok (_, rest) => do
        let _ ← Part.ofReader (Reader.whole .placeholder (trim rest))
        return .object
      | .error _ => throw (.ofRest body)

def duplicateWords : List (List Char) :=
  ["on".toList, "duplicate".toList, "key".toList, "update".toList]

def parseInsert (rest : List Char) : Part Insert := do
  let (table, body) ← .ofReader (Reader.tableName rest)
  let found := findKeyword duplicateWords body
  let source ← insertSource (trim (body.take ((found.map (·.1)).getD body.length)))
  return ⟨table, source, found.isSome⟩

/-- Assignments that cannot be read are left out, but their placeholders count. -/
def parseUpdate (rest : List Char) : Part Update := do
  let (table, after) ← .ofReader (Reader.tableName rest)
  let some (_, stop) := findKeyword ["set".toList] after | throw .missingSet
  let clauses := Clauses.ofText (after.drop stop)
  return {
    table := table
    assignments := (splitTopLevel ',' clauses.head).filterMap (Reader.whole? .assignment)
    setPlaceholders := (placeholders clauses.head).length
    conditions := conditionsOf (clauses.body? .where_) }

def parseDelete (rest : List Char) : Part Delete := do
  let (table, tail) ← .ofReader (Reader.deleteTable rest)
  return ⟨table, conditionsOf ((Clauses.ofText tail).body? .where_)⟩

def parseCreateTable (rest : List Char) : Part CreateTable := do
  let (created, _) ← .ofReader (Reader.createdTable rest)
  return created

/-- What follows the leading words of a statement. -/
def parseBody (kind : StatementKind) (rest : List Char) : Part Statement :=
  match kind with
  | .select => .select <$> parseSelect rest
  | .insert => .insert <$> parseInsert rest
  | .update => .update <$> parseUpdate rest
  | .delete => .delete <$> parseDelete rest
  | .createTable => .createTable <$> parseCreateTable rest
  | .showTables => return .showTables

/-- A statement without white space around it and semicolons after it. -/
def bareText (cs : List Char) : List Char :=
  trimEnd ((trim cs).reverse.dropWhile (· == ';')).reverse

def parseText (cs : List Char) : Except ParseError Statement :=
  let cs := bareText cs
  match Reader.leading cs with
  | .ok (kind, rest) => (parseBody kind rest).mapError (.malformed kind)
  | .error _ => .error (.unsupportedText cs)

def parse (sql : String) : Except ParseError Statement :=
  parseText sql.toList

/-- The kind of a statement by its leading words alone. -/
def classify (sql : String) : Option StatementKind :=
  match Reader.leading (trimStart sql.toList) with
  | .ok (kind, _) => some kind
  | .error _ => none

end RecordShelf.Sql

import RecordShelf.Query.Order
import RecordShelf.Query.Predicate
import RecordShelf.Query.Result
import RecordShelf.Shelf.Basic
import RecordShelf.Shelf.Identity
import RecordShelf.Sql.Parse

/-!
# Executing statements

Each statement is carried out against the shelf. Operands are bound in text order: in a SELECT the
conditions, then LIMIT with its offset first, then OFFSET. UPDATE and DELETE look for the keys of
matching records first and check each record again when its turn comes.
-/

namespace RecordShelf.Query
open Sql

/-- How records are told apart and compared. -/
structure Rules where
  identity : IdentityRules
  filter : FilterRules

/-! ## SELECT -/

/-- A SELECT with its operands bound. -/
structure BoundSelect where
  predicates : List Predicate
  offset : Option Json
  limit : Option Json

def bindSelect (s : Select) (params : Params) : BoundSelect :=
  let (predicates, b) := Predicate.bindAll (.start params) s.conditions
  let (limitOffset, b) := b.bindOptional (s.limit.bind (·.offset))
  let (limit, b) := b.bindOptional (s.limit.map (·.count))
  let (offset, _) := b.bindOptional s.offset
  ⟨predicates, offset.or limitOffset, limit⟩

/-- The part of the rows that an offset and a limit leave. -/
def page (offset limit : Option Json) (rows : List Record) : List Record :=
  let rows := rows.drop ((offset.bind asCount).getD 0)
  match limit.bind asCount with
  | some n => rows.take n
  | none => rows

/-- The rows of a SELECT from the matching records in listing order. -/
def selectRows (s : Select) (offset limit : Option Json) (found : List Record) : List Record :=
  match s.countLabel with
  | some label => [[(label, .ofNat found.length)]]
  | none => page offset limit (if s.order.isEmpty then found else sortRows s.order found)

def matching (rules : Rules) (predicates : List Predicate) (rows : List (String × Record)) :
    List (String × Record) :=
  rows.filter fun row => rules.filter.matches row.2 predicates

def executeSelect (rules : Rules) (s : Select) (params : Params) : ShelfM Result := do
  let bound := bindSelect s params
  let rows ← ShelfM.scan s.table
  return .rows (selectRows s bound.offset bound.limit
    ((matching rules bound.predicates rows).map (·.2)))

/-! ## INSERT -/

/-- The record an INSERT writes. -/
def insertRecord (s : Insert) (params : Params) : Except Error Record :=
  match s.source, params.record?, params with
  | .assignments items, _, _ =>
    .ok (Named.ofEntries ((Binder.start params).bindFields (items.map fun a => (a.column, a.value))))
  | _, some r, _ => .ok r
  | .object, none, .named fields => .ok fields
  | .object, none, .positional _ => .error (.insertData s.table .noRecord)
  | .columns names (some values), none, _ =>
    .ok (Named.ofEntries ((Binder.start params).bindFields (names.zip values)))
  | .columns names none, none, _ => .ok (params.zipColumns names)

def inserted (id : Json) : Result := .affected 1 (some id)

/-- What an INSERT stores under its key, given what is there. -/
def mergeRecord (onDuplicate : Bool) (existing : Option Record) (r : Record) : Record :=
  match onDuplicate, existing with
  | true, some old => old.extend r
  | _, _ => r

/-- Stores a record under the key of its identity. -/
def insertUnder (table : String) (onDuplicate : Bool) (identity : Identity) (r : Record) :
    ShelfM Result := do
  let existing ← ShelfM.get table identity.key
  ShelfM.put table identity.key (mergeRecord onDuplicate existing r)
  return inserted identity.value

/-- Stores a record under the next number of the table's counter. -/
def insertNumbered (table : String) (r : Record) : ShelfM Result := do
  let id ← ShelfM.nextId table
  let r := r.insert "id" (.ofInt64 id)
  ShelfM.put table (String.ofList (decimalInt id.toInt)) r
  return inserted (.ofInt64 id)

def executeInsert (rules : Rules) (stamp : Nat) (s : Insert) (params : Params) : ShelfM Result := do
  let r ← ShelfM.read fun _ => insertRecord s params
  if r.isEmpty then throw (.insertData s.table .noFields)
  if (← getThe Shelf).isAutoIncrement s.table then insertNumbered s.table r
  else
    match rules.identity.resolve s.table r with
    | none => return inserted (.ofNat (← ShelfM.putGenerated s.table stamp r))
    | some identity => insertUnder s.table s.onDuplicate identity r

/-! ## UPDATE -/

/-- The value that a column takes from a record of params. -/
def fieldOperand (fields : Record) (a : Assignment) : Option Json :=
  match a.value with
  | .literal l => some (literalValue l)
  | .placeholder .positional => fields.get? a.column
  | .placeholder (.named name) => fields.get? name

/-- The assignments of an UPDATE and the place of the first param of its conditions: with a record
as first param values come from it by name, else they are taken in text order. -/
def bindAssignments (s : Update) (params : Params) : List (String × Json) × Nat :=
  match params.record? with
  | some fields =>
    (s.assignments.filterMap fun a => (fieldOperand fields a).map fun v => (a.column, v), 1)
  | none =>
    ((Binder.start params).bindFields (s.assignments.map fun a => (a.column, a.value)),
      s.setPlaceholders)

/-- A truth value stays one: what stands for true is true and all else false. A boolean field takes
the truth value that the new value stands for, if it stands for one. -/
def assignedValue (rules : FilterRules) (column : String) (existing : Option Json) (new : Json) :
    Json :=
  match existing with
  | some (.bool _) => .bool (coerceBool new == some true)
  | _ =>
    if rules.isBoolean column then
      match coerceBool new with
      | some b => .bool b
      | none => new
    else new

def assign (rules : FilterRules) (r : Record) (assignments : List (String × Json)) : Record :=
  assignments.foldl
    (fun r a => r.insert a.1 (assignedValue rules a.1 (r.get? a.1) a.2)) r

/-- Assigns to the record under a key, if it still matches; says whether it did. -/
def updateKey (rules : Rules) (table : String) (predicates : List Predicate)
    (assignments : List (String × Json)) (key : String) : ShelfM Bool := do
  match ← ShelfM.get table key with
  | none => return false
  | some r =>
    if rules.filter.matches r predicates then
      ShelfM.put table key (assign rules.filter r assignments)
      return true
    else return false

/-- Removes the record under a key, if it still matches; says whether it did. -/
def deleteKey (rules : Rules) (table : String) (predicates : List Predicate) (key : String) :
    ShelfM Bool := do
  match ← ShelfM.get table key with
  | none => return false
  | some r =>
    if rules.filter.matches r predicates then ShelfM.remove table key else return false

/-- Does something under each key in turn and counts the keys where it was done. -/
def countKeys (act : String → ShelfM Bool) : List String → ShelfM Nat
  | [] => return 0
  | key :: rest => do
    let done ← act key
    return (if done then 1 else 0) + (← countKeys act rest)

def matchingKeys (rules : Rules) (table : String) (predicates : List Predicate) :
    ShelfM (List String) := do
  return (matching rules predicates (← ShelfM.scan table)).map (·.1)

def executeUpdate (rules : Rules) (s : Update) (params : Params) : ShelfM Result := do
  if ← ShelfM.read (·.tableExists s.table) then
    let (assignments, first) := bindAssignments s params
    let predicates := (Predicate.bindAll (.startingAt params first) s.conditions).1
    let keys ← matchingKeys rules s.table predicates
    return .affected (← countKeys (updateKey rules s.table predicates assignments) keys) none
  else return .affected 0 none

/-! ## DELETE and the rest -/

def executeDelete (rules : Rules) (s : Delete) (params : Params) : ShelfM Result := do
  let predicates := (Predicate.bindAll (.start params) s.conditions).1
  let keys ← matchingKeys rules s.table predicates
  return .affected (← countKeys (deleteKey rules s.table predicates) keys) none

/-- The last part of the data directory's path names the database. -/
def databaseName (location : String) : String :=
  match (TreePath.ofText location).getLast? with
  | none | some ".." => "filedb"
  | some name => name

def executeShowTables : ShelfM Result := do
  let names ← ShelfM.read (·.tables)
  return .tables (databaseName (← getThe Shelf).location) names

/-- Carries out a statement; `stamp` is the present moment in milliseconds. -/
def execute (rules : Rules) (stamp : Nat) (statement : Statement) (params : Params) :
    ShelfM Result :=
  match statement with
  | .select s => executeSelect rules s params
  | .insert s => executeInsert rules stamp s params
  | .update s => executeUpdate rules s params
  | .delete s => executeDelete rules s params
  | .createTable s => do
    ShelfM.ensureTable s.name
    return .affected 0 none
  | .showTables => executeShowTables

/-- Carries out a text. A statement of a known kind that cannot be read does nothing. -/
def executeText (rules : Rules) (stamp : Nat) (sql : String) (params : Params) : ShelfM Result :=
  match parse sql with
  | .ok statement => execute rules stamp statement params
  | .error (.malformed kind _) => return .empty kind
  | .error (.unsupported statement) => throw (.unsupportedQuery statement)

/-- Carries out a text that has to be a statement. -/
def executePrepared (rules : Rules) (stamp : Nat) (sql : String) (params : Params) :
    ShelfM Result :=
  match parse sql with
  | .ok statement => execute rules stamp statement params
  | .error e => throw (.ofParse e)

end RecordShelf.Query

import RecordShelf.Number.Double

/-!
# Statements

The statements of the dialect as trees. A WHERE term that the grammar cannot read keeps its text
and the placeholders in it, so that params after it stay in step; a select item that is no column
keeps its text.
-/

namespace RecordShelf.Sql

inductive StatementKind where
  | select
  | insert
  | update
  | delete
  | createTable
  | showTables
  deriving DecidableEq, Repr

namespace StatementKind

def name : StatementKind → String
  | .select => "SELECT"
  | .insert => "INSERT"
  | .update => "UPDATE"
  | .delete => "DELETE"
  | .createTable => "CREATE TABLE"
  | .showTables => "SHOW TABLES"

def isWrite : StatementKind → Bool
  | .insert | .update | .delete | .createTable => true
  | .select | .showTables => false

end StatementKind

inductive Placeholder where
  | positional
  | named (name : String)
  deriving DecidableEq

inductive Literal where
  | null
  | bool (b : Bool)
  | int (n : Int64)
  | float (x : Double)
  | string (s : String)
  deriving DecidableEq

inductive Operand where
  | placeholder (p : Placeholder)
  | literal (l : Literal)
  deriving DecidableEq

inductive CompareOp where
  | eq
  | ne
  | gt
  | lt
  | ge
  | le
  | like
  | notLike
  deriving DecidableEq, Repr

inductive Condition where
  | compare (field : String) (op : CompareOp) (value : Operand)
  | isNull (field : String) (negated : Bool)
  | unread (text : String) (placeholders : List Placeholder)
  deriving DecidableEq

inductive Column where
  | star
  | field (name : String)
  | count (label : Option String)
  | other (text : String)
  deriving DecidableEq

inductive Direction where
  | ascending
  | descending
  deriving DecidableEq, Repr

structure OrderItem where
  column : String
  direction : Direction
  deriving DecidableEq

structure Limit where
  offset : Option Operand
  count : Operand
  deriving DecidableEq

structure Select where
  columns : List Column
  table : String
  conditions : List Condition
  order : List OrderItem
  limit : Option Limit
  offset : Option Operand
  deriving DecidableEq

/-- The column name of the count, if the select list asks for one. -/
def Select.countLabel (s : Select) : Option String :=
  s.columns.findSome? fun
    | .count label => some (label.getD "count")
    | _ => none

structure Assignment where
  column : String
  value : Operand
  deriving DecidableEq

inductive InsertSource where
  | columns (names : List String) (values : Option (List Operand))
  | object
  | assignments (items : List Assignment)
  deriving DecidableEq

structure Insert where
  table : String
  source : InsertSource
  onDuplicate : Bool
  deriving DecidableEq

structure Update where
  table : String
  assignments : List Assignment
  setPlaceholders : Nat
  conditions : List Condition
  deriving DecidableEq

structure Delete where
  table : String
  conditions : List Condition
  deriving DecidableEq

structure CreateTable where
  name : String
  ifNotExists : Bool
  deriving DecidableEq

inductive Statement where
  | select (s : Select)
  | insert (s : Insert)
  | update (s : Update)
  | delete (s : Delete)
  | createTable (s : CreateTable)
  | showTables
  deriving DecidableEq

def Statement.kind : Statement → StatementKind
  | .select _ => .select
  | .insert _ => .insert
  | .update _ => .update
  | .delete _ => .delete
  | .createTable _ => .createTable
  | .showTables => .showTables

end RecordShelf.Sql

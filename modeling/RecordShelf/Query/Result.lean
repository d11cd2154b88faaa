import RecordShelf.Json.Value
import RecordShelf.Sql.Statement

/-!
# Results of statements

A SELECT gives rows, a write the number of records it touched and perhaps the identity of the new
one, and SHOW TABLES the names of the tables.
-/

namespace RecordShelf.Query

inductive Result where
  | rows (rows : List Record)
  | affected (count : Nat) (insertId : Option Json)
  | tables (database : String) (names : List String)

namespace Result

/-- What a statement gives that cannot be read. -/
def empty : Sql.StatementKind → Result
  | .select => .rows []
  | .showTables => .tables "" []
  | .insert | .update | .delete | .createTable => .affected 0 none

def toRows : Result → List Record
  | .rows found => found
  | _ => []

/-- The rows of a listing of tables. -/
def tableRow (database name : String) : Record := [("Tables_in_" ++ database, .string name)]

def toJson : Result → Json
  | .rows found => .array (found.map .object)
  | .affected count insertId =>
    .object (("affectedRows", .ofNat count) :: (insertId.map fun id => ("insertId", id)).toList)
  | .tables database names => .array (names.map fun name => .object (tableRow database name))

end Result

end RecordShelf.Query

import RecordShelf.Names
import RecordShelf.Sql.ParseError

/-!
# Errors

What can go wrong, by cause. Damaged record files are no errors: they count as absent. Errors that
a caller can mend by changing its statement are recoverable.
-/

namespace RecordShelf

inductive IoAction where
  | fileRead
  | fileWrite
  | fileDelete
  | directoryCreate
  | directoryRead
  deriving DecidableEq, Repr

def IoAction.text : IoAction → String
  | .fileRead => "read file"
  | .fileWrite => "write file"
  | .fileDelete => "delete file"
  | .directoryCreate => "create directory"
  | .directoryRead => "read directory"

/-- Why a directory tree refuses an action. -/
inductive IoCause where
  | missing
  | alreadyExists
  | notDirectory
  | isDirectory
  | nameTooLong
  | nulInName
  | notText
  deriving DecidableEq, Repr

def IoCause.text : IoCause → String
  | .missing => "No such file or directory (os error 2)"
  | .alreadyExists => "File exists (os error 17)"
  | .notDirectory => "Not a directory (os error 20)"
  | .isDirectory => "Is a directory (os error 21)"
  | .nameTooLong => "File name too long (os error 36)"
  | .nulInName => "file name contained an unexpected NUL byte"
  | .notText => "stream did not contain valid UTF-8"

inductive InsertProblem where
  | noFields
  | noRecord
  deriving DecidableEq, Repr

def InsertProblem.text : InsertProblem → String
  | .noFields => "no fields to insert"
  | .noRecord => "the first param must be an object"

/-- What is wrong with a configuration. -/
inductive ConfigProblem where
  | unreadable (reason : String)
  | noEntries
  | noConcurrency
  | noInterval
  deriving DecidableEq

def ConfigProblem.text : ConfigProblem → String
  | .unreadable reason => reason
  | .noEntries => "cache.max_entries must be at least 1"
  | .noConcurrency => "optimizer.batch_concurrency must be at least 1"
  | .noInterval => "sweep intervals must be non-zero"

inductive Error where
  | unsupportedQuery (statement : String)
  | malformedQuery (kind : Sql.StatementKind) (cause : Sql.Malformation)
  | insertData (table : String) (problem : InsertProblem)
  | name (fault : NameFault)
  | io (action : IoAction) (path : String) (cause : IoCause)
  | json (reason : String)
  | config (problem : ConfigProblem)
  | other (message : String)
  deriving DecidableEq

namespace Error

def ofParse : Sql.ParseError → Error
  | .unsupported statement => .unsupportedQuery statement
  | .malformed kind cause => .malformedQuery kind cause

def message : Error → String
  | .unsupportedQuery statement => "Unsupported query: " ++ statement
  | .malformedQuery kind cause =>
    "Query parse error: " ++ (Sql.ParseError.malformed kind cause).message
  | .insertData table problem => "Invalid data for INSERT into '" ++ table ++ "': " ++ problem.text
  | .name fault => fault.refusal
  | .io action path cause => "Failed to " ++ action.text ++ " '" ++ path ++ "': " ++ cause.text
  | .json reason => "JSON error: " ++ reason
  | .config problem => "Invalid configuration: " ++ problem.text
  | .other message => message

/-- How to mend the cause, where that can be said. -/
def suggestion : Error → Option String
  | .unsupportedQuery _ =>
    some "Supported statements: INSERT INTO, SELECT, UPDATE, DELETE, CREATE TABLE, SHOW TABLES"
  | .insertData .. =>
    some "Pass the record as the first param or list columns: INSERT INTO t (a, b) VALUES (?, ?)"
  | .name _ =>
    some "Table names and record keys may only use letters, digits, underscores and hyphens"
  | .config _ => some "Check the YAML config file against the documented keys"
  | _ => none

def isRecoverable : Error → Bool
  | .unsupportedQuery _ | .malformedQuery .. | .insertData .. | .name _ => true
  | _ => false

end Error

end RecordShelf

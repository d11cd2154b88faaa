/-!
# Names of tables and keys of records

Tables become directories and keys become file names, so both are short, plain, and no name that
a device has taken.
-/

namespace RecordShelf

inductive NameKind where
  | table
  | key
  deriving DecidableEq, Repr

def NameKind.text : NameKind → String
  | .table => "table name"
  | .key => "record key"

inductive NameProblem where
  | empty
  | tooLong
  | traversal
  | characters
  | reserved
  deriving DecidableEq, Repr

/-- A name that is refused. -/
structure NameFault where
  kind : NameKind
  value : String
  problem : NameProblem
  deriving DecidableEq

namespace Names

def maxLength : Nat := 255

def devices : List String :=
  ["con", "prn", "aux", "nul",
    "com1", "com2", "com3", "com4", "com5", "com6", "com7", "com8", "com9",
    "lpt1", "lpt2", "lpt3", "lpt4", "lpt5", "lpt6", "lpt7", "lpt8", "lpt9"]

def allows (kind : NameKind) (c : Char) : Bool :=
  c.isAlphanum || c == '_' || (kind == .key && c == '-')

/-- Two dots in a row, or a slash of either kind. -/
def hasTraversal : List Char → Bool
  | [] => false
  | '.' :: '.' :: _ => true
  | c :: cs => c == '/' || c == '\\' || hasTraversal cs

/-- The first problem of a name. -/
def problem? (kind : NameKind) (value : String) : Option NameProblem :=
  if value.isEmpty then some .empty
  else if value.utf8ByteSize > maxLength then some .tooLong
  else if kind = .key ∧ hasTraversal value.toList then some .traversal
  else if !value.toList.all (allows kind) then some .characters
  else if devices.contains (String.ofList (value.toList.map Char.toLower)) then some .reserved
  else none

def check (kind : NameKind) (value : String) : Except NameFault Unit :=
  match problem? kind value with
  | some problem => throw ⟨kind, value, problem⟩
  | none => pure ()

def isKey (value : String) : Bool := (problem? .key value).isNone

def isTable (value : String) : Bool := (problem? .table value).isNone

end Names

namespace NameFault

/-- Why a name with forbidden content is refused. -/
def reason (fault : NameFault) : String :=
  match fault.problem, fault.kind with
  | .empty, _ => "cannot be empty"
  | .tooLong, _ => "exceeds maximum length"
  | .traversal, _ => "contains path traversal characters"
  | .characters, .table => "contains invalid characters (only alphanumeric and underscore allowed)"
  | .characters, .key =>
    "contains invalid characters (only alphanumeric, underscore, and hyphen allowed)"
  | .reserved, _ => "is a reserved name"

/-- The fault as a statement's error. -/
def refusal (fault : NameFault) : String :=
  "Invalid " ++ fault.kind.text ++ " '" ++ fault.value ++ "': " ++ fault.reason

/-- The fault as the check's own report. -/
def report (fault : NameFault) : String :=
  match fault.problem with
  | .empty => fault.kind.text ++ " cannot be empty"
  | .tooLong => fault.kind.text ++ " '" ++ fault.value ++ "' is too long (max 255 characters)"
  | _ => fault.refusal

end NameFault

end RecordShelf

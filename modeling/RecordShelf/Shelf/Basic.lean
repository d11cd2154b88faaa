import RecordShelf.Error
import RecordShelf.Shelf.Node
import RecordShelf.Shelf.RecordFile

/-!
# The shelf

A shelf is a data directory: each table is a directory in it and each record a file `<key>.json` in
its table. Reading gives a value or an error and changes nothing. Writing a record makes its table
if need be, writes a temporary file beside the record's file and then renames it, so that the file
holds either the old record or the new one at every moment.
-/

namespace RecordShelf

structure Shelf where
  /-- The path of the data directory, for messages. -/
  location : String
  /-- Tables whose keys come from a counter. -/
  autoIncrement : List String
  /-- The number that marks this process's temporary files. -/
  process : Nat
  /-- How many temporary files have been named. -/
  written : Nat
  /-- The data directory, once it exists. -/
  root : Option Node

/-- The key of the counter's record. -/
def counterKey : String := "last_id"

namespace Shelf

def isAutoIncrement (s : Shelf) (table : String) : Bool := s.autoIncrement.contains table

def tablePath (s : Shelf) (table : String) : String := joinPath s.location table

def path (s : Shelf) (table name : String) : String := joinPath (s.tablePath table) name

/-- The entries of a table's directory. -/
def tableEntries (s : Shelf) (table : String) : Except IoCause Entries :=
  match s.root with
  | none => .error .missing
  | some (.file _) => .error .notDirectory
  | some (.directory tables) =>
    match Named.get? tables table with
    | none => .error .missing
    | some (.file _) => .error .notDirectory
    | some (.directory entries) => .ok entries

/-- Puts entries in the place of a table's. -/
def setTable (s : Shelf) (table : String) (entries : Entries) : Shelf :=
  match s.root with
  | some (.directory tables) =>
    { s with root := some (.directory (Named.insert tables table (.directory entries))) }
  | _ => s

/-- The bytes of a file in a table. -/
def readFile (s : Shelf) (table name : String) : Except IoCause ByteArray := do
  let entries ← s.tableEntries table
  if !Node.fits name then throw .nameTooLong
  match entries.get? name with
  | none => throw .missing
  | some (.directory _) => throw .isDirectory
  | some (.file content) => return content

def checkTable (table : String) : Except Error Unit :=
  (Names.check .table table).mapError .name

def checkRecord (table key : String) : Except Error Unit := do
  (Names.check .key key).mapError .name
  checkTable table

/-! ## Reading -/

/-- One record; a missing, blank or damaged file is no record. -/
def get (s : Shelf) (table key : String) : Except Error (Option Record) := do
  checkRecord table key
  match s.readFile table (fileName key) with
  | .ok content => return RecordFile.decode content
  | .error .missing => return none
  | .error cause => throw (.io .fileRead (s.path table (fileName key)) cause)

/-- The key of a file's record, unless it is the hidden counter or no key. -/
def recordKey? (hideCounter : Bool) (name : String) : Option String :=
  match stem? name with
  | none => none
  | some key =>
    if (hideCounter && key == counterKey) || !Names.isKey key then none else some key

/-- The records among entries, in listing order; fails with the name of a directory that stands
where a record's file would be. -/
def scanEntries (hideCounter : Bool) : Entries → Except String (List (String × Record))
  | [] => .ok []
  | (name, node) :: rest =>
    match recordKey? hideCounter name, node with
    | none, _ => scanEntries hideCounter rest
    | some _, .directory _ => .error name
    | some key, .file content =>
      match RecordFile.decode content with
      | some r => (scanEntries hideCounter rest).map ((key, r) :: ·)
      | none => scanEntries hideCounter rest

/-- The records of a table with their keys; a missing table has none. -/
def scan (s : Shelf) (table : String) : Except Error (List (String × Record)) := do
  checkTable table
  match s.tableEntries table with
  | .error .missing => return []
  | .error cause => throw (.io .directoryRead (s.tablePath table) cause)
  | .ok entries =>
    (scanEntries (s.isAutoIncrement table) entries).mapError fun name =>
      .io .fileRead (s.path table name) .isDirectory

def list (s : Shelf) (table : String) : Except Error (List Record) :=
  (s.scan table).map (·.map (·.2))

/-- The data directory if it can be listed. The empty path names none, though the paths of tables
start at it. -/
def listed (s : Shelf) : Option Node := if s.location.isEmpty then none else s.root

/-- The names of all table directories, sorted. -/
def tables (s : Shelf) : Except Error (List String) :=
  match s.listed with
  | none => .ok []
  | some (.file _) => .error (.io .directoryRead s.location .notDirectory)
  | some (.directory entries) =>
    let found := entries.filterMap fun (name, node) => if node.isDirectory then some name else none
    .ok (found.mergeSort fun a b => a ≤ b)

def tableExists (s : Shelf) (table : String) : Except Error Bool := do
  checkTable table
  return (s.tableEntries table).toOption.isSome

/-! ## Single steps of writing -/

/-- The shelf with a data directory. -/
def withRoot (s : Shelf) : Except IoCause Shelf :=
  match s.root with
  | none => .ok { s with root := some (.directory []) }
  | some (.directory _) => .ok s
  | some (.file _) => .error .alreadyExists

/-- The shelf with a directory for a table. -/
def withTable (s : Shelf) (table : String) : Except IoCause Shelf :=
  match s.root with
  | none => .ok { s with root := some (.directory [(table, .directory [])]) }
  | some (.file _) => .error .notDirectory
  | some (.directory tables) =>
    match Named.get? tables table with
    | none => .ok { s with root := some (.directory (Named.insert tables table (.directory []))) }
    | some (.directory _) => .ok s
    | some (.file _) => .error .alreadyExists

/-- The name of the next temporary file for a key. -/
def temporaryName (s : Shelf) (key : String) : String :=
  key ++ "." ++ String.ofList (decimalDigits s.process) ++ "." ++
    String.ofList (decimalDigits s.written) ++ ".tmp"

/-- Writes a file of a table, whatever it held before. -/
def writeFile (s : Shelf) (table name : String) (content : ByteArray) : Except IoCause Shelf := do
  let entries ← s.tableEntries table
  if !Node.fits name then throw .nameTooLong
  match entries.get? name with
  | some (.directory _) => throw .isDirectory
  | _ => return s.setTable table (entries.insert name (.file content))

/-- Creates a file of a table that does not exist yet. -/
def createFile (s : Shelf) (table name : String) (content : ByteArray) : Except IoCause Shelf := do
  let entries ← s.tableEntries table
  if !Node.fits name then throw .nameTooLong
  match entries.get? name with
  | some _ => throw .alreadyExists
  | none => return s.setTable table (entries.insert name (.file content))

/-- Gives a file of a table another name, in the place of a file that has it. -/
def renameFile (s : Shelf) (table old new : String) : Except IoCause Shelf := do
  let entries ← s.tableEntries table
  if !Node.fits new then throw .nameTooLong
  match entries.get? old, entries.get? new with
  | none, _ => throw .missing
  | some _, some (.directory _) => throw .isDirectory
  | some node, _ => return s.setTable table ((entries.erase old).insert new node)

/-- Removes a file of a table. -/
def removeFile (s : Shelf) (table name : String) : Except IoCause Shelf := do
  let entries ← s.tableEntries table
  if !Node.fits name then throw .nameTooLong
  match entries.get? name with
  | none => throw .missing
  | some (.directory _) => throw .isDirectory
  | some (.file _) => return s.setTable table (entries.erase name)

end Shelf

/-- An action on a shelf; what it changed before it failed stays changed. -/
abbrev ShelfM := ExceptT Error (StateM Shelf)

namespace ShelfM

/-- Looks something up without changing anything. -/
def read {α : Type} (f : Shelf → Except Error α) : ShelfM α := do
  liftExcept (f (← getThe Shelf))
where
  liftExcept : Except Error α → ShelfM α
    | .ok a => pure a
    | .error e => throw e

/-- Takes a step; when it is refused the shelf is as before. -/
def step (action : IoAction) (path : String) (f : Shelf → Except IoCause Shelf) : ShelfM Unit := do
  match f (← getThe Shelf) with
  | .ok s => set s
  | .error cause => throw (.io action path cause)

/-! ## Writing -/

def get (table key : String) : ShelfM (Option Record) := read (·.get table key)

def scan (table : String) : ShelfM (List (String × Record)) := read (·.scan table)

/-- Makes the directory of a table unless it is there. -/
def ensureTable (table : String) : ShelfM Unit := do
  read fun _ => Shelf.checkTable table
  step .directoryCreate ((← getThe Shelf).tablePath table) (·.withTable table)

/-- Makes the data directory and its tables. -/
def openTables (tables : List String) : ShelfM Unit := do
  step .directoryCreate (← getThe Shelf).location (·.withRoot)
  tables.forM ensureTable

/-- Names a temporary file that no other write of this process has. -/
def nameTemporary (key : String) : ShelfM String := do
  let s ← getThe Shelf
  set { s with written := s.written + 1 }
  return s.temporaryName key

/-- Renames a temporary file over the record's file, or removes it if that fails. -/
def publish (table temporary key : String) : ShelfM Unit := do
  let s ← getThe Shelf
  match s.renameFile table temporary (fileName key) with
  | .ok s => set s
  | .error cause =>
    set ((s.removeFile table temporary).toOption.getD s)
    throw (.io .fileWrite (s.path table (fileName key)) cause)

/-- Writes a record, replacing the one under its key. -/
def put (table key : String) (r : Record) : ShelfM Unit := do
  read fun _ => Shelf.checkRecord table key
  ensureTable table
  let temporary ← nameTemporary key
  step .fileWrite ((← getThe Shelf).path table temporary)
    (·.writeFile table temporary (RecordFile.encode r))
  publish table temporary key

/-- Deletes a record's file and says whether there was one. -/
def remove (table key : String) : ShelfM Bool := do
  read fun _ => Shelf.checkRecord table key
  let s ← getThe Shelf
  match s.removeFile table (fileName key) with
  | .ok s => set s; return true
  | .error .missing => return false
  | .error cause => throw (.io .fileDelete (s.path table (fileName key)) cause)

/-- The first stamp from `stamp` on whose file name is free; as many stamps are tried as the table
has entries, and one more. -/
def freeStamp (entries : Entries) : Nat → Nat → Nat
  | 0, stamp => stamp
  | tries + 1, stamp =>
    match entries.get? (fileName (String.ofList (decimalDigits stamp))) with
    | none => stamp
    | some _ => freeStamp entries tries (stamp + 1)

/-- Stores a record under the first free stamp and gives the stamp. -/
def putGenerated (table : String) (stamp : Nat) (r : Record) : ShelfM Nat := do
  ensureTable table
  let s ← getThe Shelf
  let entries := (s.tableEntries table).toOption.getD []
  let stamp := freeStamp entries (entries.length + 1) stamp
  let name := fileName (String.ofList (decimalDigits stamp))
  step .fileWrite (s.path table name) (·.createFile table name (RecordFile.encode r))
  return stamp

/-- The last number that the counter's record holds, zero if it holds none. -/
def lastId (counter : Option Record) : Int64 :=
  match counter.bind (·.get? counterKey) with
  | some (.number n) => n.toInt64?.getD 0
  | _ => 0

/-- Takes the next number of a table's counter. -/
def nextId (table : String) : ShelfM Int64 := do
  let next := lastId (← get table counterKey) + 1
  put table counterKey [(counterKey, .ofInt64 next)]
  return next

end ShelfM

end RecordShelf

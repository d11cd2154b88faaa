import RecordShelf.Cache.Caches
import RecordShelf.Cache.Sweeper
import RecordShelf.Query.Execute
import RecordShelf.Settings.Basic
import RecordShelf.Shelf.Cleanup

/-!
# Databases

A database is a shelf with caches in front of it. Ages in the caches are measured on a clock that
only runs forward and that `advance` moves; dates in records are compared with `now`, the calendar's
time. Between two statements nothing happens but the sweeps that are due.
-/

namespace RecordShelf

structure Database where
  settings : Settings
  shelf : Shelf
  caches : Caches
  /-- Records as they were read, by name. -/
  records : TimedCache Json
  /-- Milliseconds on the running clock. -/
  clock : Nat
  /-- Milliseconds since the start of 1970. -/
  now : Nat
  /-- When the sweeps were started, if they are running. -/
  sweeping : Option Nat

/-- The rules that settings give for telling records apart and comparing them. -/
def Settings.rules (s : Settings) : Query.Rules :=
  ⟨⟨s.identityFields, s.primaryKeys⟩, ⟨s.booleanFields, s.dualFields⟩⟩

namespace Database

/-- A database over a data directory, with empty caches. -/
def create (settings : Settings) (process now : Nat) (root : Option Node) : Database where
  settings := settings
  shelf := ⟨settings.dataDirectory, settings.autoIncrement, process, 0, root⟩
  caches := .create settings.cache.ttlOf settings.cache.maxEntries
  records := .create settings.lookup.recordTtl settings.cache.maxEntries
  clock := 0
  now := now
  sweeping := none

/-- The caches as the sweeps leave them that are due until `now`. -/
def sweepCaches (db : Database) (start now : Nat) : Caches :=
  match (Sweeper.mk start db.settings.cache.sweepInterval).lastDue? db.clock now with
  | some due => (db.caches.sweep due).2
  | none => db.caches

/-- The records as the sweeps leave them that are due until `now`. -/
def sweepRecords (db : Database) (start now : Nat) : TimedCache Json :=
  match (Sweeper.mk start db.settings.lookup.recordSweepInterval).lastDue? db.clock now with
  | some due => (db.records.sweep due).2
  | none => db.records

/-- Lets the running clock go on. -/
def advance (db : Database) (ms : Nat) : Database :=
  let now := db.clock + ms
  match db.sweeping with
  | none => { db with clock := now }
  | some start =>
    { db with
      clock := now
      caches := db.sweepCaches start now
      records := db.sweepRecords start now }

/-- Starts the sweeps, unless they are running. -/
def startSweeps (db : Database) : Database :=
  { db with sweeping := some (db.sweeping.getD db.clock) }

def stopSweeps (db : Database) : Database := { db with sweeping := none }

end Database

/-- An action on a database; what it changed before it failed stays changed. -/
abbrev DatabaseM := ExceptT Error (StateM Database)

namespace DatabaseM

/-- An action on the shelf of a database. -/
def onShelf {α : Type} (act : ShelfM α) : DatabaseM α := fun db =>
  let (result, shelf) := act db.shelf
  (result, { db with shelf := shelf })

def check (s : Settings) : DatabaseM Unit :=
  match s.check with
  | .ok () => pure ()
  | .error e => throw e

/-- Checks the settings and makes the data directory with its tables. -/
def opened : DatabaseM Unit := do
  let db ← getThe Database
  check db.settings
  onShelf (ShelfM.openTables db.settings.tables)

/-- Carries out a text; one of a known kind that cannot be read does nothing. -/
def execute (sql : String) (params : Query.Params) : DatabaseM Query.Result := do
  let db ← getThe Database
  onShelf (Query.executeText db.settings.rules db.now sql params)

/-- Carries out a text that has to be a statement. -/
def executePrepared (sql : String) (params : Query.Params) : DatabaseM Query.Result := do
  let db ← getThe Database
  onShelf (Query.executePrepared db.settings.rules db.now sql params)

end DatabaseM

end RecordShelf

import RecordShelf.CommandLine.Arguments
import RecordShelf.CommandLine.Shell
import RecordShelf.CommandLine.World
import RecordShelf.Settings.File

/-!
# Running a command

A command prints and changes files. What it printed and changed before it failed stays. The exit
code is zero for success and for help, one for a failure and two for arguments that make no sense.
-/

namespace RecordShelf.CommandLine

/-- The world with the data directory of a database in its place. -/
def World.withDatabase (w : World) (db : Database) : World :=
  match w.base db.settings.dataDirectory, db.shelf.root with
  | .ok place, some root => w.put place root
  | _, _ => w

/-- What a command works on and has printed. -/
structure Terminal where
  world : World
  printed : String
  /-- The number that marks the process's temporary files. -/
  process : Nat
  /-- Milliseconds since the start of 1970. -/
  now : Nat

abbrev TerminalM := ExceptT Error (StateM Terminal)

namespace TerminalM

def print (text : String) : TerminalM Unit :=
  modifyThe Terminal fun t => { t with printed := t.printed ++ text }

/-- Puts the data directory of a database back into the world. -/
def store (db : Database) : TerminalM Unit :=
  modifyThe Terminal fun t => { t with world := t.world.withDatabase db }

/-- Acts on a database and keeps what that changes. -/
def act {α : Type} (db : Database) (action : DatabaseM α) : TerminalM (α × Database) := do
  let (result, db) := action.run db
  store db
  match result with
  | .ok a => return (a, db)
  | .error e => throw e

/-- Makes the data directory and those before it. -/
def makeBase (path : String) : TerminalM Unit := do
  let t ← getThe Terminal
  let (result, w) := (WorldM.makeDirectories path).run t.world
  set { t with world := w }
  match result with
  | .ok () => return
  | .error cause => throw (.io .directoryCreate path cause)

/-- Opens the database of the settings. -/
def openDatabase (s : Settings) : TerminalM Database := do
  ofExcept s.check
  makeBase s.dataDirectory
  let t ← getThe Terminal
  let root := (t.world.base s.dataDirectory).bind t.world.tree.find
  return (← act (.create s t.process t.now root.toOption) DatabaseM.opened).2

/-- The settings from the settings file and the options. -/
def settings (i : Invocation) : TerminalM Settings := do
  let w := (← getThe Terminal).world
  let found : Except Error Settings :=
    match i.settingsFile with
    | none => .ok .default
    | some path =>
      Settings.loadOrDefault path (if w.hasNode path then some (w.readFile path) else none)
  match found with
  | .ok s => return { s with dataDirectory := i.dataDirectory.getD s.dataDirectory }
  | .error e => throw e

/-- Writes the settings file unless there is one. -/
def saveSettings (s : Settings) (path : String) : TerminalM Unit := do
  let t ← getThe Terminal
  if t.world.hasNode path then return
  match t.world.writeFile path s.write.toUTF8 with
  | .error cause => throw (.io .fileWrite path cause)
  | .ok w =>
    set { t with world := w }
    print (lineText ("Wrote default config to " ++ Text.quoted path))

def init (s : Settings) (settingsFile : Option String) : TerminalM Unit := do
  print (lineText ("Initializing filedb at " ++ Text.quoted s.dataDirectory ++ "..."))
  match settingsFile with
  | some path => saveSettings s path
  | none => pure ()
  let db ← openDatabase s
  let (names, _) ← act db (DatabaseM.onShelf (ShelfM.read (·.tables)))
  print (readyText names.length)

/-- The params that a text gives. -/
def readParams : Option String → TerminalM Query.Params
  | none => return .none
  | some text =>
    match Json.read? text with
    | some v => return .ofJson v
    | none => throw (.json "the params are no JSON")

def query (s : Settings) (sql : String) (params : Option String) : TerminalM Unit := do
  let db ← openDatabase s
  let params ← readParams params
  let (result, _) ← act db (DatabaseM.execute sql params)
  print (resultText result)

/-- Prints the tables with the number of their records. -/
def printTables (db : Database) : List String → TerminalM Unit
  | [] => return ()
  | name :: rest => do
    let (found, db) ← act db (DatabaseM.onShelf (ShelfM.scan name))
    print (tableText name found.length)
    printTables db rest

def tables (s : Settings) : TerminalM Unit := do
  let db ← openDatabase s
  print (lineText "Tables:")
  let (names, db) ← act db (DatabaseM.onShelf (ShelfM.read (·.tables)))
  printTables db names

def cleanup (s : Settings) : TerminalM Unit := do
  let db ← openDatabase s
  let (report, _) ← act db (DatabaseM.onShelf ShelfM.cleanup)
  print (cleanupText s.dataDirectory report)

/-- Opens the database for the shell. -/
def openShell (s : Settings) : TerminalM Database := do
  print Shell.welcome
  return (← openDatabase s).startSweeps

def repl (s : Settings) (lines : List String) : TerminalM Unit := do
  let db ← openShell s
  let (text, db) := Shell.run db lines
  print text
  store db

def command (i : Invocation) (lines : List String) : TerminalM Unit := do
  let s ← settings i
  match i.command with
  | .init => init s i.settingsFile
  | .query sql params => query s sql params
  | .repl => repl s lines
  | .tables => tables s
  | .cleanup => cleanup s

end TerminalM

/-- How a command ends. -/
structure Outcome where
  code : Nat
  printed : String
  complaint : Option String
  world : World

/-- The lines of an input; the last one may lack its end. -/
def inputLines (input : String) : List String :=
  let lines := input.splitOn "\n"
  if lines.getLast? = some "" then lines.dropLast else lines

/-- Runs the program on its arguments and its input. -/
def run (process now : Nat) (world : World) (arguments : List String) (input : String) : Outcome :=
  match Request.ofArguments arguments with
  | .misuse => ⟨2, "", none, world⟩
  | .help topic => ⟨0, topic.text, none, world⟩
  | .run i =>
    match (TerminalM.command i (inputLines input)).run ⟨world, "", process, now⟩ with
    | (.ok (), t) => ⟨0, t.printed, none, t.world⟩
    | (.error e, t) => ⟨1, t.printed, some ("Error: " ++ e.message), t.world⟩

end RecordShelf.CommandLine

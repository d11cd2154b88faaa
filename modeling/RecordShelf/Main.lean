import RecordShelf.CommandLine.Run
import Std.Time.DateTime.Timestamp

/-!
# The program

The program loads the files that a command works on, runs the command on them and writes back what
it changed. The shell does so line by line.
-/

namespace RecordShelf.Main
open CommandLine

/-- The node at an absolute path. -/
partial def load (path : String) : IO (Option Node) := do
  let file := (← IO.currentDir) / path
  if ← file.isDir then
    let mut entries : Array (String × Node) := #[]
    for entry in ← file.readDir do
      if let some node ← load (path ++ "/" ++ entry.fileName) then
        entries := entries.push (entry.fileName, node)
    return some (.directory entries.toList)
  else if ← file.pathExists then
    return some (.file (← IO.FS.readBinFile file))
  else return none

def pathText (place : TreePath) : String := "/" ++ "/".intercalate place

/-- Adds what stands at a place, without the entries of a directory. -/
def add (world : World) (place : TreePath) : IO World := do
  if (world.tree.find place).toOption.isSome then return world
  let file := (← IO.currentDir) / pathText place
  if ← file.isDir then return world.put place (.directory [])
  else if ← file.pathExists then return world.put place (.file (← IO.FS.readBinFile file))
  else return world

/-- Adds what stands at the steps of a path, and gives the place where it ends. -/
def addPath (world : World) (path : String) : IO (World × TreePath) := do
  let p := Path.ofText path
  let mut world := world
  let mut place := world.start p
  for part in p.parts do
    place := if part = "." then place else if part = ".." then place.dropLast else place ++ [part]
    world ← add world place
  return (world, place)

/-- Adds what stands at a path with all below it. -/
def addAll (world : World) (path : String) : IO World := do
  let (world, place) ← addPath world path
  return ((← load (pathText place)).map (world.put place)).getD world

/-- Brings the files at a path from one state to another. -/
partial def sync (path : String) (old new : Option Node) : IO Unit := do
  match old, new with
  | _, none => return
  | some (.file a), some (.file b) => unless a == b do IO.FS.writeBinFile path b
  | _, some (.file b) => IO.FS.writeBinFile path b
  | old, some (.directory entries) =>
    let before := match old with
      | some (.directory entries) => entries
      | _ => []
    unless before.length > 0 do IO.FS.createDirAll path
    for (name, node) in entries do
      sync (path ++ "/" ++ name) (Named.get? before name) (some node)
    for (name, _) in before do
      if (Named.get? entries name).isNone then IO.FS.removeFile (path ++ "/" ++ name)

/-- Brings the files of one world to the state of another. -/
def syncWorld (old new : World) : IO Unit := sync "" (some old.tree) (some new.tree)

/-- Milliseconds since the start of 1970. -/
def now : IO Nat := do
  return (← Std.Time.Timestamp.now).toMillisecondsSinceUnixEpoch.val.toNat

/-- Prompts for lines and carries them out until the shell is left. -/
partial def shell (input output : IO.FS.Stream) (db : Database) (world : World) (clock : Nat) :
    IO Unit := do
  output.putStr Shell.prompt
  output.flush
  let line ← input.getLine
  let moment ← IO.monoMsNow
  let db := { db.advance (moment - clock) with now := ← now }
  match if line.isEmpty then ("", none) else Shell.step db line with
  | (text, none) => output.putStr (text ++ Shell.farewell)
  | (text, some db) =>
    let next := world.withDatabase db
    syncWorld world next
    output.putStr text
    shell input output db next moment

/-- Prints what a command printed and why it failed, and gives its exit code. -/
def finish (output : IO.FS.Stream) (o : Outcome) : IO UInt32 := do
  output.putStr o.printed
  output.flush
  if let some complaint := o.complaint then IO.eprintln complaint
  return o.code.toUInt32

/-- Runs a command with the files it works on. -/
def runInvocation (arguments : List String) (i : Invocation) : IO UInt32 := do
  let output ← IO.getStdout
  let mut world : World := ⟨.directory [], TreePath.ofText (← IO.currentDir).toString⟩
  for n in List.range world.directory.length do
    world ← add world (world.directory.take (n + 1))
  if let some path := i.settingsFile then world := (← addPath world path).1
  let moment ← now
  match (TerminalM.settings i).run ⟨world, "", 0, moment⟩ with
  | (.error _, _) => finish output (run 0 moment world arguments "")
  | (.ok s, _) =>
    world ← addAll world s.dataDirectory
    match i.command with
    | .repl =>
      match (TerminalM.openShell s).run ⟨world, "", 0, moment⟩ with
      | (.error e, t) =>
        syncWorld world t.world
        finish output ⟨1, t.printed, some ("Error: " ++ e.message), t.world⟩
      | (.ok db, t) =>
        syncWorld world t.world
        output.putStr t.printed
        shell (← IO.getStdin) output db t.world (← IO.monoMsNow)
        return 0
    | _ =>
      let o := run 0 moment world arguments ""
      syncWorld world o.world
      finish output o

end RecordShelf.Main

open RecordShelf in
def main (arguments : List String) : IO UInt32 := do
  match CommandLine.Request.ofArguments arguments with
  | .run i => Main.runInvocation arguments i
  | .help topic =>
    IO.print topic.text
    return 0
  | .misuse =>
    IO.eprintln "Usage: filedb [OPTIONS] <COMMAND>"
    return 2

import RecordShelf.CommandLine.Report
import RecordShelf.Text.LowerCase

/-!
# The shell

The shell prompts, reads a line and carries it out until it is told to stop or the input ends. A
failure is printed and the shell goes on.
-/

namespace RecordShelf.CommandLine.Shell

def welcome : String :=
  linesText ["filedb Interactive Shell", "Type 'help' for commands, 'exit' to quit.", ""]

def prompt : String := "filedb> "

def farewell : String := lineText "Goodbye!"

def help : String :=
  linesText
    ["Commands:",
      "  SELECT * FROM <table> [WHERE ...] [ORDER BY ...] [LIMIT n]",
      "  INSERT INTO <table> (a, b) VALUES (1, 'x')",
      "  UPDATE <table> SET a = 1 WHERE ...",
      "  DELETE FROM <table> WHERE ...",
      "  CREATE TABLE [IF NOT EXISTS] <name>",
      "  SHOW TABLES",
      "",
      "Special:",
      "  stats, \\s - Show cache statistics",
      "  help, \\h  - Show this help",
      "  exit, \\q  - Exit the shell"]

inductive Input where
  | nothing
  | leave
  | help
  | stats
  | statement (sql : String)

/-- What a line asks for. -/
def Input.ofLine (line : String) : Input :=
  let cs := Text.trim line.toList
  let word := String.ofList (Text.lowerCase cs)
  if cs.isEmpty then .nothing
  else if word = "exit" ∨ word = "quit" ∨ word = "\\q" then .leave
  else if word = "help" ∨ word = "\\h" then .help
  else if word = "stats" ∨ word = "\\s" then .stats
  else .statement (String.ofList cs)

/-- What a statement prints. -/
def statementText (db : Database) (sql : String) : String × Database :=
  let (result, db) := (DatabaseM.execute sql .none).run db
  match result with
  | .ok result => (resultText result ++ "\n", db)
  | .error e => (failureText e ++ "\n", db)

/-- What a line prints; nothing more is read after the last one. -/
def step (db : Database) (line : String) : String × Option Database :=
  match Input.ofLine line with
  | .nothing => ("", some db)
  | .leave => ("", none)
  | .help => (help, some db)
  | .stats => (lineText db.caches.stats.text, some db)
  | .statement sql =>
    let (text, db) := statementText db sql
    (text, some db)

/-- What lines print, and the database after them. -/
def run (db : Database) : List String → String × Database
  | [] => (prompt ++ farewell, db)
  | line :: rest =>
    match step db line with
    | (text, none) => (prompt ++ text ++ farewell, db)
    | (text, some db) =>
      let (more, db) := run db rest
      (prompt ++ text ++ more, db)

end RecordShelf.CommandLine.Shell

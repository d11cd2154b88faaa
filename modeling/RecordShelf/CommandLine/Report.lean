import RecordShelf.Database.Basic
import RecordShelf.Query.Result

/-!
# What is printed
-/

namespace RecordShelf.CommandLine

def countText (n : Nat) : String := String.ofList (decimalDigits n)

/-- A text with the end of its line. -/
def lineText (s : String) : String := s ++ "\n"

def linesText (ss : List String) : String := String.join (ss.map lineText)

/-- The result of a statement. -/
def resultText : Query.Result → String
  | .rows [] => lineText "(0 rows)"
  | .rows found =>
    linesText [(Query.Result.rows found).toJson.pretty, "(" ++ countText found.length ++ " row(s))"]
  | .affected n none => lineText ("(" ++ countText n ++ " row(s) affected)")
  | .affected n (some id) =>
    lineText ("(" ++ countText n ++ " row(s) affected, insert id " ++ id.compact ++ ")")
  | .tables _ names =>
    linesText (names.map ("  " ++ ·) ++ ["(" ++ countText names.length ++ " table(s))"])

/-- A failure inside the shell, with a hint where there is one. -/
def failureText (e : Error) : String :=
  linesText (("Error: " ++ e.message) :: (e.suggestion.map ("Hint: " ++ ·)).toList)

def tableText (name : String) (records : Nat) : String :=
  lineText ("  " ++ name ++ " (" ++ countText records ++ " records)")

def cleanupText (location : String) (r : CleanupReport) : String :=
  let path := fun place => Text.quoted (place.foldl joinPath location)
  linesText
    (("Scanned " ++ countText r.scanned ++ " record files.") ::
      r.removed.map (fun place => "  removed empty " ++ path place) ++
      r.invalid.map (fun place => "  invalid JSON " ++ path place) ++
      ["Removed " ++ countText r.removed.length ++ ", invalid " ++ countText r.invalid.length ++ "."])

/-- What follows a data directory that is ready. -/
def readyText (tables : Nat) : String :=
  linesText
    ["Database initialized with " ++ countText tables ++ " tables.",
      "",
      "Get started:",
      "  filedb query \"INSERT INTO roles_1 SET ?\" --params '[\x7b\"user_id\": 42, \"role_id\": 3\x7d]'",
      "  filedb query \"SELECT * FROM roles_1 WHERE user_id = ?\" --params '[42]'"]

end RecordShelf.CommandLine

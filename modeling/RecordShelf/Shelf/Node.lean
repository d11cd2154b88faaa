import RecordShelf.Named

/-!
# Directory trees

A node is a file with its bytes or a directory with its entries in the order in which they are
listed.
-/

namespace RecordShelf

inductive Node where
  | file (content : ByteArray)
  | directory (entries : List (String × Node))
  deriving Inhabited

/-- The entries of a directory, in listing order. -/
abbrev Entries := Named Node

namespace Node

def isDirectory : Node → Bool
  | .directory _ => true
  | .file _ => false

/-- The longest name that an entry can have, in bytes. -/
def maxName : Nat := 255

def fits (name : String) : Bool := name.utf8ByteSize ≤ maxName

end Node

/-- The names on the way from a directory to a node in it. -/
abbrev TreePath := List String

/-- The names of a path's text, without empty ones and dots. -/
def TreePath.ofText (path : String) : TreePath :=
  (path.splitOn "/").filter fun part => part ≠ "" ∧ part ≠ "."

/-- The text of a path below another one. -/
def joinPath (base name : String) : String :=
  if base.isEmpty || base.toList.getLast? = some '/' then base ++ name else base ++ "/" ++ name

/-- The ending of record files. -/
def recordSuffix : String := ".json"

/-- The name of a record's file. -/
def fileName (key : String) : String := key ++ recordSuffix

/-- What precedes the ending of a record file's name; a name that is only the ending has none. -/
def stem? (name : String) : Option String :=
  let cs := name.toList
  let n := cs.length - recordSuffix.toList.length
  if n > 0 ∧ cs.drop n = recordSuffix.toList then some (String.ofList (cs.take n)) else none

theorem stem?_fileName {key : String} (h : key ≠ "") : stem? (fileName key) = some key := by
  have hk : key.toList ≠ [] := fun e => h (by rw [← String.ofList_toList (s := key), e])
  have hl : 0 < key.toList.length := by
    cases hc : key.toList with
    | nil => exact absurd hc hk
    | cons => simp
  unfold stem? fileName
  simp [String.toList_append, hl]

end RecordShelf

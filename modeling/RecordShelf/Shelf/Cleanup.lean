import RecordShelf.Shelf.Basic

/-!
# Clean-up of a data directory

Every file with the ending of a record, at any depth, is looked at: a blank one is removed, and one
that is no JSON is reported and left where it is.
-/

namespace RecordShelf

-- The order of the core library, whatever else is in scope.
attribute [local instance (2000)] List.instLE List.decidableLE

structure CleanupReport where
  /-- Files with the ending of a record. -/
  scanned : Nat
  /-- Blank files, which are gone. -/
  removed : List TreePath
  /-- Files that are no JSON. -/
  invalid : List TreePath

namespace CleanupReport

def empty : CleanupReport := ⟨0, [], []⟩

def append (a b : CleanupReport) : CleanupReport :=
  ⟨a.scanned + b.scanned, a.removed ++ b.removed, a.invalid ++ b.invalid⟩

def sorted (r : CleanupReport) : CleanupReport :=
  ⟨r.scanned, r.removed.mergeSort fun a b => a ≤ b, r.invalid.mergeSort fun a b => a ≤ b⟩

end CleanupReport

/-- What is done with one file, and whether it stays. -/
def cleanFile (place : TreePath) (name : String) (content : ByteArray) : CleanupReport × Bool :=
  if (stem? name).isNone then (.empty, true)
  else if RecordFile.isBlank content then (⟨1, [place ++ [name]], []⟩, false)
  else if (Json.ofBytes? content).isNone then (⟨1, [], [place ++ [name]]⟩, true)
  else (⟨1, [], []⟩, true)

mutual

def cleanNode (place : TreePath) (name : String) : Node → CleanupReport × Option Node
  | .file content =>
    let (report, stays) := cleanFile place name content
    (report, if stays then some (.file content) else none)
  | .directory entries =>
    let (report, entries) := cleanEntries (place ++ [name]) entries
    (report, some (.directory entries))

def cleanEntries (place : TreePath) : List (String × Node) → CleanupReport × List (String × Node)
  | [] => (.empty, [])
  | (name, node) :: rest =>
    let (first, node) := cleanNode place name node
    let (others, rest) := cleanEntries place rest
    (first.append others, (node.map fun node => (name, node)).toList ++ rest)

end

/-- Cleans up a whole data directory. -/
def ShelfM.cleanup : ShelfM CleanupReport := do
  let s ← getThe Shelf
  match s.listed with
  | some (.directory entries) =>
    let (report, entries) := cleanEntries [] entries
    set { s with root := some (.directory entries) }
    return report.sorted
  | _ => return .empty

end RecordShelf

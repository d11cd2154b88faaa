import RecordShelf.Error
import RecordShelf.Shelf.Node

/-!
# Working in directory trees

Looking up, placing and removing nodes by their path, and listing all files below a node.
-/

namespace RecordShelf.Node

/-- The node at a path. -/
def find : Node → TreePath → Except IoCause Node
  | node, [] => .ok node
  | .file _, _ :: _ => .error .notDirectory
  | .directory entries, name :: rest =>
    match Named.get? entries name with
    | none => .error .missing
    | some node => node.find rest

/-- Changes what stands at a path, making the directories on the way. -/
def alter (f : Option Node → Except IoCause Node) : Option Node → TreePath → Except IoCause Node
  | node, [] => f node
  | some (.file _), _ :: _ => .error .notDirectory
  | some (.directory entries), name :: rest => do
    let node ← alter f (Named.get? entries name) rest
    return .directory (Named.insert entries name node)
  | none, name :: rest => do
    let node ← alter f none rest
    return .directory [(name, node)]

/-- What a file of some content leaves at a place. -/
def overwrite (content : ByteArray) : Option Node → Except IoCause Node
  | some (.directory _) => .error .isDirectory
  | _ => .ok (.file content)

/-- What making a directory leaves at a place. -/
def ensureDirectory : Option Node → Except IoCause Node
  | none => .ok (.directory [])
  | some (.directory entries) => .ok (.directory entries)
  | some (.file _) => .error .alreadyExists

/-- What is left when the node at a path is removed with all below it. -/
def prune : Node → TreePath → Option Node
  | _, [] => none
  | .file content, _ :: _ => some (.file content)
  | .directory entries, name :: rest =>
    match Named.get? entries name with
    | none => some (.directory entries)
    | some node =>
      match node.prune rest with
      | none => some (.directory (Named.erase entries name))
      | some node => some (.directory (Named.insert entries name node))

mutual

/-- The files below a node, with their paths. -/
def filesAt (place : TreePath) : Node → List (TreePath × ByteArray)
  | .file content => [(place, content)]
  | .directory entries => filesOf place entries

def filesOf (place : TreePath) : List (String × Node) → List (TreePath × ByteArray)
  | [] => []
  | (name, node) :: rest => filesAt (place ++ [name]) node ++ filesOf place rest

end

def files (node : Node) : List (TreePath × ByteArray) := filesAt [] node

end RecordShelf.Node

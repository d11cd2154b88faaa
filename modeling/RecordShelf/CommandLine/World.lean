import RecordShelf.CommandLine.Path
import RecordShelf.Shelf.Tree

/-!
# The file system around a command

A tree of files with a working directory. A path is followed step by step: what every step but the
last one leads to has to be a directory that is there, also before two dots.
-/

namespace RecordShelf.CommandLine

structure World where
  tree : Node
  directory : TreePath

namespace World

/-! ## Following paths -/

/-- The entries of the directory at a place. -/
def entries (w : World) (place : TreePath) : Except IoCause Entries := do
  match ← w.tree.find place with
  | .file _ => throw .notDirectory
  | .directory entries => return entries

/-- The place that one step leads to from a directory. -/
def step (w : World) (place : TreePath) (part : String) : Except IoCause TreePath := do
  let entries ← w.entries place
  if part = "." then return place
  else if part = ".." then return place.dropLast
  else if !Node.fits part then throw .nameTooLong
  else if (Named.get? entries part).isNone then throw .missing
  else return place ++ [part]

/-- Where a path starts. -/
def start (w : World) (p : Path) : TreePath := if p.absolute then [] else w.directory

/-- The place of what a path names. -/
def locate (w : World) (p : Path) : Except IoCause TreePath :=
  if p.isEmpty then .error .missing else p.steps.foldlM w.step (w.start p)

def node? (w : World) (p : Path) : Except IoCause Node := do w.tree.find (← w.locate p)

/-- Whether something stands at a path. -/
def hasNode (w : World) (path : String) : Bool := ((Path.read path).bind w.node?).toOption.isSome

def hasDirectory (w : World) (p : Path) : Bool := (w.node? p).toOption.any Node.isDirectory

/-- The place of a directory to work in; the empty path stands for the working directory. -/
def base (w : World) (path : String) : Except IoCause TreePath := do
  let p ← Path.read path
  if p.isEmpty then return w.directory else w.locate p

/-! ## Files -/

/-- The content of a file. -/
def readFile (w : World) (path : String) : Except IoCause ByteArray := do
  match ← w.node? (← Path.read path) with
  | .file content => return content
  | .directory _ => throw .isDirectory

/-- The world with a node in its place. -/
def put (w : World) (place : TreePath) (node : Node) : World :=
  { w with tree := (Node.alter (fun _ => .ok node) (some w.tree) place).toOption.getD w.tree }

/-- What can be made under a name in a directory that is there: the place, and what stands in it. -/
def slot (w : World) (start : TreePath) (steps : List String) :
    Except IoCause (TreePath × Option Node) := do
  match steps.getLast? with
  | none => throw .alreadyExists
  | some name =>
    let place ← steps.dropLast.foldlM w.step start
    let entries ← w.entries place
    if name = "." ∨ name = ".." then throw .alreadyExists
    else if !Node.fits name then throw .nameTooLong
    else return (place ++ [name], Named.get? entries name)

/-- Writes a file into a directory that is there. -/
def writeFile (w : World) (path : String) (content : ByteArray) : Except IoCause World := do
  let p ← Path.read path
  match ← w.slot (w.start p) p.steps with
  | (_, some (.directory _)) => throw .isDirectory
  | (place, _) => return w.put place (.file content)

/-! ## Directories -/

/-- Makes a directory in a directory that is there. -/
def makeDirectory (w : World) (p : Path) : Except IoCause World := do
  match ← w.slot (w.start p) p.parts with
  | (_, some _) => throw .alreadyExists
  | (place, none) => return w.put place (.directory [])

end World

/-- An action on a world; what it changed before it failed stays changed. -/
abbrev WorldM := ExceptT IoCause (StateM World)

namespace WorldM

/-- Makes a directory unless it is there. -/
def ensureDirectory (p : Path) : WorldM Unit := do
  let w ← getThe World
  match w.makeDirectory p with
  | .ok w => set w
  | .error cause => if w.hasDirectory p then return else throw cause

/-- Makes a directory and, where the way to it is missing, the directories before it. The empty path
needs none. -/
def makeWay (p : Path) : WorldM Unit := do
  if p.isEmpty then return
  let w ← getThe World
  match w.makeDirectory p, _h : p.parent? with
  | .error .missing, some q =>
    makeWay q
    ensureDirectory p
  | _, _ => ensureDirectory p
termination_by p.parts.length
decreasing_by exact Path.length_parent? _h

/-- Makes the directory that a text names. -/
def makeDirectories (path : String) : WorldM Unit := do
  makeWay (← ofExcept (Path.read path))

end WorldM

end RecordShelf.CommandLine

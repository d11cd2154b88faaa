import RecordShelf.Proofs.Shelf.Rewrite
import RecordShelf.Shelf.Tree

/-!
# Single files

The file at a path, however deep it is. Writing over a record, or making its table first, leaves
every file that is neither the record's nor the temporary one.
-/

namespace RecordShelf

namespace Node
variable {name : String} {entries : Entries}

/-- The bytes of the file at a path below a node. -/
def fileAt (node : Node) (path : TreePath) : Option ByteArray :=
  match node.find path with
  | .ok (.file content) => some content
  | _ => none

theorem fileAt_directory_nil (entries : Entries) : (directory entries).fileAt [] = none := by
  rw [fileAt, find]

theorem fileAt_directory_cons (entries : Entries) (name : String) (rest : TreePath) :
    (directory entries).fileAt (name :: rest) =
      (entries.get? name).bind fun node => node.fileAt rest := by
  rw [fileAt, find]
  cases entries.get? name <;> rfl

theorem fileAt_file_cons (content : ByteArray) (name : String) (rest : TreePath) :
    (file content).fileAt (name :: rest) = none := by
  rw [fileAt, find]

theorem fileAt_empty (path : TreePath) : (directory []).fileAt path = none := by
  cases path with
  | nil => exact fileAt_directory_nil []
  | cons name rest => exact fileAt_directory_cons [] name rest

/-- Where no directory stands there is no file farther down. -/
theorem fileAt_below {node : Option Node} (h : ∀ es, node ≠ some (.directory es)) (name : String)
    (rest : TreePath) : (node.bind fun node => node.fileAt (name :: rest)) = none := by
  cases node with
  | none => rfl
  | some node =>
    cases node with
    | file content => exact fileAt_file_cons content name rest
    | directory es => exact absurd rfl (h es)

end Node

namespace Shelf
variable {s made : Shelf} {table key : String} {entries replaced : Entries} {path : TreePath}

/-- The bytes of the file at a path in the data directory. -/
def fileAt (s : Shelf) (path : TreePath) : Option ByteArray :=
  s.root.bind fun node => node.fileAt path

theorem fileAt_counting (s : Shelf) (n : ℕ) (path : TreePath) :
    (s.counting n).fileAt path = s.fileAt path := by
  rw [counting, fileAt, fileAt]

/-- The files of a table are those below its entries. -/
theorem fileAt_table (he : s.tableEntries table = .ok entries) (name : String) (rest : TreePath) :
    s.fileAt (table :: name :: rest) = (entries.get? name).bind fun node => node.fileAt rest := by
  obtain ⟨tables, hroot, hget⟩ := tableEntries_eq_ok_iff.1 he
  rw [fileAt, hroot, Option.bind_some, Node.fileAt_directory_cons, hget, Option.bind_some,
    Node.fileAt_directory_cons]

/-- Putting entries in the place of a table's leaves each file that they leave. -/
theorem fileAt_setTable (he : s.tableEntries table = .ok entries)
    (h : ∀ name rest, path = table :: name :: rest →
      ((replaced.get? name).bind fun node => node.fileAt rest) =
        (entries.get? name).bind fun node => node.fileAt rest) :
    (s.setTable table replaced).fileAt path = s.fileAt path := by
  obtain ⟨tables, hroot, hget⟩ := tableEntries_eq_ok_iff.1 he
  rw [setTable_eq hroot, fileAt, fileAt, hroot, Option.bind_some, Option.bind_some]
  cases path with
  | nil => rw [Node.fileAt_directory_nil, Node.fileAt_directory_nil]
  | cons t below =>
    rw [Node.fileAt_directory_cons, Node.fileAt_directory_cons]
    by_cases ht : t = table
    · subst ht
      rw [Named.get?_insert_self, hget, Option.bind_some, Option.bind_some]
      cases below with
      | nil => rw [Node.fileAt_directory_nil, Node.fileAt_directory_nil]
      | cons name rest =>
        rw [Node.fileAt_directory_cons, Node.fileAt_directory_cons]
        exact h name rest rfl
    · rw [Named.get?_insert_of_ne tables _ ht]

/-- A new table has no files. -/
theorem fileAt_withTable (h : s.withTable table = .ok made) (path : TreePath) :
    made.fileAt path = s.fileAt path := by
  have hnew : ∀ tables : List (String × Node), Named.get? tables table = none →
      (Node.directory (Named.insert tables table (.directory []))).fileAt path =
        (Node.directory tables).fileAt path := by
    intro tables hget
    cases path with
    | nil => rw [Node.fileAt_directory_nil, Node.fileAt_directory_nil]
    | cons t below =>
      rw [Node.fileAt_directory_cons, Node.fileAt_directory_cons]
      by_cases ht : t = table
      · rw [ht, Named.get?_insert_self, hget, Option.bind_some, Node.fileAt_empty]
        rfl
      · rw [Named.get?_insert_of_ne tables _ ht]
  unfold withTable at h
  split at h
  · rename_i hroot
    obtain rfl := Except.ok.inj h
    rw [fileAt, fileAt, hroot, Option.bind_some, Option.bind_none]
    exact (hnew [] rfl).trans (Node.fileAt_empty path)
  · exact absurd h (by simp)
  · rename_i tables hroot
    split at h
    · rename_i hget
      obtain rfl := Except.ok.inj h
      rw [fileAt, fileAt, hroot, Option.bind_some, Option.bind_some]
      exact hnew tables hget
    · obtain rfl := Except.ok.inj h
      rfl
    · exact absurd h (by simp)

/-- Writing over a record changes no file but the record's and the temporary one. -/
theorem fileAt_putOver (he : s.tableEntries table = .ok entries) (hdistinct : entries.names.Nodup)
    (hfree : ∀ es, entries.get? (fileName key) ≠ some (.directory es))
    (hwrite : s.canWrite entries key = true) (r : Record) (hrecord : path ≠ [table, fileName key])
    (htemporary : path ≠ [table, s.temporaryName key]) :
    (s.setTable table (s.putOver entries key r)).fileAt path = s.fileAt path := by
  refine fileAt_setTable he fun name rest hpath => ?_
  have hbelow : ∀ {file : String}, name = file → path ≠ [table, file] →
      ∃ n below, rest = n :: below := by
    rintro file rfl hne
    cases rest with
    | nil => exact absurd hpath hne
    | cons n below => exact ⟨n, below, rfl⟩
  rw [putOver]
  by_cases hname : name = fileName key
  · obtain ⟨n, below, rfl⟩ := hbelow hname hrecord
    rw [hname, Named.get?_insert_self, Option.bind_some, Node.fileAt_file_cons,
      Node.fileAt_below hfree]
  · rw [Named.get?_insert_of_ne _ _ hname]
    by_cases htemp : name = s.temporaryName key
    · obtain ⟨n, below, rfl⟩ := hbelow htemp htemporary
      rw [htemp, Named.get?_erase_self hdistinct, Node.fileAt_below (canWrite_iff.1 hwrite).2]
      rfl
    · rw [Named.get?_erase_of_ne _ htemp]

end Shelf

end RecordShelf

import RecordShelf.Proofs.Named
import RecordShelf.Shelf.Cleanup
import RecordShelf.Shelf.Tree

/-!
# Cleaning up a directory tree

A clean-up goes through a tree once and comes back with a report and with the tree that it leaves.
Both are told by the list of files below: the blank ones among the record files are gone, and all
others are there as they were. A second clean-up of what is left finds nothing to remove.
-/

namespace RecordShelf

/-! ## Files that a clean-up looks at -/

/-- A path with the ending of a record file. -/
def isRecordPath (path : TreePath) : Bool := (stem? (path.getLast?.getD "")).isSome

/-- A record file that is blank. -/
def isSpent (file : TreePath × ByteArray) : Bool :=
  isRecordPath file.1 && RecordFile.isBlank file.2

/-- A record file that is not blank and no JSON. -/
def isDamaged (file : TreePath × ByteArray) : Bool :=
  isRecordPath file.1 && !RecordFile.isBlank file.2 && (Json.ofBytes? file.2).isNone

namespace CleanupReport
variable {files : List (TreePath × ByteArray)}

/-- The report on some files. -/
def ofFiles (files : List (TreePath × ByteArray)) : CleanupReport :=
  ⟨(files.filter fun file => isRecordPath file.1).length, (files.filter isSpent).map (·.1),
    (files.filter isDamaged).map (·.1)⟩

theorem ofFiles_append (first second : List (TreePath × ByteArray)) :
    ofFiles (first ++ second) = (ofFiles first).append (ofFiles second) := by
  simp only [ofFiles, append, List.filter_append, List.length_append, List.map_append]

/-- What is left has as many record files less, no blank ones, and the same damaged ones. -/
theorem ofFiles_left (files : List (TreePath × ByteArray)) :
    (ofFiles files).removed.length ≤ (ofFiles files).scanned ∧
    ofFiles (files.filter fun file => !isSpent file) =
      ⟨(ofFiles files).scanned - (ofFiles files).removed.length, [], (ofFiles files).invalid⟩ := by
  have hspent : (files.filter fun file => isRecordPath file.1).filter isSpent =
      files.filter isSpent := by
    rw [List.filter_filter]
    refine List.filter_congr fun file _ => ?_
    cases hrecord : isRecordPath file.1 <;> simp [isSpent, hrecord]
  have hsplit := List.length_eq_length_filter_add isSpent
    (l := files.filter fun file => isRecordPath file.1)
  rw [hspent] at hsplit
  have hnone : (files.filter fun file => !isSpent file).filter isSpent = [] := by
    rw [List.filter_filter, List.filter_eq_nil_iff]
    intro file _
    cases isSpent file <;> decide
  have hdamaged : (files.filter fun file => !isSpent file).filter isDamaged =
      files.filter isDamaged := by
    rw [List.filter_filter]
    refine List.filter_congr fun file _ => ?_
    cases hblank : RecordFile.isBlank file.2 <;> simp [isDamaged, isSpent, hblank]
  have hleft : (files.filter fun file => !isSpent file).filter (fun file => isRecordPath file.1) =
      (files.filter fun file => isRecordPath file.1).filter fun file => !isSpent file :=
    List.filter_comm _ _ _
  simp only [ofFiles, hnone, hdamaged, hleft, List.length_map, List.map_nil, CleanupReport.mk.injEq,
    and_true]
  omega

theorem path_of_removed {path : TreePath} (h : path ∈ (ofFiles files).removed) :
    path ∈ files.map (·.1) :=
  (List.filter_sublist.map _).subset h

/-- A damaged file is not blank. -/
theorem path_of_invalid {path : TreePath} (h : path ∈ (ofFiles files).invalid) :
    path ∈ (files.filter fun file => !isSpent file).map (·.1) := by
  obtain ⟨file, hfile, rfl⟩ := List.mem_map.1 h
  obtain ⟨hmem, hdamaged⟩ := List.mem_filter.1 hfile
  refine List.mem_map.2 ⟨file, List.mem_filter.2 ⟨hmem, ?_⟩, rfl⟩
  rw [isDamaged, Bool.and_eq_true, Bool.and_eq_true] at hdamaged
  rw [isSpent, Bool.not_and, hdamaged.1.2, Bool.or_true]

end CleanupReport

/-! ## One pass -/

section
variable {place : TreePath} {name : String}

theorem cleanNode_file (place : TreePath) (name : String) (content : ByteArray) :
    cleanNode place name (.file content) = ((cleanFile place name content).1,
      if (cleanFile place name content).2 = true then some (.file content) else none) := by
  rw [cleanNode]

theorem cleanNode_directory (place : TreePath) (name : String) (entries : List (String × Node)) :
    cleanNode place name (.directory entries) = ((cleanEntries (place ++ [name]) entries).1,
      some (.directory (cleanEntries (place ++ [name]) entries).2)) := by
  rw [cleanNode]

theorem cleanEntries_cons (place : TreePath) (name : String) (node : Node)
    (entries : List (String × Node)) : cleanEntries place ((name, node) :: entries) =
      ((cleanNode place name node).1.append (cleanEntries place entries).1,
        ((cleanNode place name node).2.map fun node => (name, node)).toList ++
          (cleanEntries place entries).2) := by
  rw [cleanEntries]

theorem cleanFile_eq (place : TreePath) (name : String) (content : ByteArray) :
    cleanFile place name content =
      (.ofFiles [(place ++ [name], content)], !isSpent (place ++ [name], content)) := by
  have hpath : isRecordPath (place ++ [name]) = (stem? name).isSome := by
    rw [isRecordPath, List.getLast?_concat, Option.getD_some]
  cases hstem : stem? name with
  | none =>
    simp [cleanFile, CleanupReport.ofFiles, isSpent, isDamaged, hpath, hstem, CleanupReport.empty]
  | some stem =>
    cases hblank : RecordFile.isBlank content <;> cases hjson : (Json.ofBytes? content).isNone <;>
      simp [cleanFile, CleanupReport.ofFiles, isSpent, isDamaged, hpath, hstem, hblank, hjson]

mutual

/-- The report on a node and the files that are left of it. -/
theorem cleanNode_files (place : TreePath) (name : String) : ∀ node : Node,
    (cleanNode place name node).1 = .ofFiles (node.filesAt (place ++ [name])) ∧
    (cleanNode place name node).2.toList.flatMap (Node.filesAt (place ++ [name])) =
      (node.filesAt (place ++ [name])).filter fun file => !isSpent file
  | .file content => by
    rw [cleanNode_file, cleanFile_eq, Node.filesAt]
    refine ⟨rfl, ?_⟩
    cases hspent : isSpent (place ++ [name], content) <;> simp [hspent, Node.filesAt]
  | .directory entries => by
    obtain ⟨hreport, hleft⟩ := cleanEntries_files (place ++ [name]) entries
    rw [cleanNode_directory, Node.filesAt]
    refine ⟨hreport, ?_⟩
    rw [Option.toList_some, List.flatMap_singleton, Node.filesAt]
    exact hleft

theorem cleanEntries_files (place : TreePath) : ∀ entries : List (String × Node),
    (cleanEntries place entries).1 = .ofFiles (Node.filesOf place entries) ∧
    Node.filesOf place (cleanEntries place entries).2 =
      (Node.filesOf place entries).filter fun file => !isSpent file
  | [] => ⟨rfl, rfl⟩
  | (name, node) :: entries => by
    obtain ⟨hfirst, hkept⟩ := cleanNode_files place name node
    obtain ⟨hothers, hleft⟩ := cleanEntries_files place entries
    rw [cleanEntries_cons, Node.filesOf, CleanupReport.ofFiles_append, List.filter_append, ← hkept,
      ← hleft]
    refine ⟨by rw [hfirst, hothers], ?_⟩
    cases (cleanNode place name node).2 with
    | none => rfl
    | some node => simp [Node.filesOf]

end

mutual

/-- What is left stays as it is in a second pass. -/
theorem cleanNode_again (place : TreePath) (name : String) : ∀ {node left : Node},
    (cleanNode place name node).2 = some left → (cleanNode place name left).2 = some left
  | .file content, left, h => by
    have hstays : (cleanFile place name content).2 = true := by
      by_contra hgone
      rw [cleanNode_file, if_neg hgone] at h
      exact nomatch h
    rw [cleanNode_file, if_pos hstays] at h
    obtain rfl := Option.some.inj h
    rw [cleanNode_file, if_pos hstays]
  | .directory entries, left, h => by
    rw [cleanNode_directory] at h
    obtain rfl := Option.some.inj h
    rw [cleanNode_directory, cleanEntries_again]

theorem cleanEntries_again (place : TreePath) : ∀ entries : List (String × Node),
    (cleanEntries place (cleanEntries place entries).2).2 = (cleanEntries place entries).2
  | [] => rfl
  | (name, node) :: entries => by
    have hrest := cleanEntries_again place entries
    rw [cleanEntries_cons]
    cases hnode : (cleanNode place name node).2 with
    | none => exact hrest
    | some left =>
      have hleft := cleanNode_again place name hnode
      simp only [Option.map_some, Option.toList_some, List.singleton_append, cleanEntries_cons,
        hleft, hrest]

end

/-! ## Entries that are left -/

section
variable {entries : List (String × Node)}

/-- A directory stays a directory, and what stays of a file is the file. -/
theorem isDirectory_cleanNode (place : TreePath) (name : String) (node : Node) :
    (cleanNode place name node).2.any Node.isDirectory = node.isDirectory := by
  cases node with
  | file content =>
    rw [cleanNode_file]
    split_ifs <;> rfl
  | directory entries => rfl

theorem names_cleanEntries_sublist (place : TreePath) (entries : List (String × Node)) :
    (Named.names (cleanEntries place entries).2).Sublist (Named.names entries) := by
  induction entries with
  | nil => exact List.Sublist.slnil
  | cons entry entries ih =>
    rw [cleanEntries_cons]
    cases (cleanNode place entry.1 entry.2).2 with
    | none => exact ih.cons _
    | some left => exact ih.cons_cons _

theorem get?_cleanEntries (place : TreePath) (h : (Named.names entries).Nodup) (name : String) :
    Named.get? (cleanEntries place entries).2 name =
      (Named.get? entries name).bind fun node => (cleanNode place name node).2 := by
  induction entries with
  | nil => rfl
  | cons entry entries ih =>
    obtain ⟨other, node⟩ := entry
    rw [Named.names, List.map_cons, List.nodup_cons] at h
    rw [cleanEntries_cons, Named.get?]
    by_cases hname : other = name
    · subst hname
      rw [if_pos rfl, Option.bind_some]
      cases (cleanNode place other node).2 with
      | none =>
        exact Named.get?_eq_none_iff.2 fun hmem =>
          h.1 ((names_cleanEntries_sublist place entries).subset hmem)
      | some left => exact if_pos rfl
    · rw [if_neg hname, ← ih h.2]
      cases (cleanNode place other node).2 with
      | none => rfl
      | some left => exact if_neg hname

/-- The directories are all still there. -/
theorem directories_cleanEntries (place : TreePath) (entries : List (String × Node)) :
    ((cleanEntries place entries).2.filterMap fun (name, node) =>
      if node.isDirectory then some name else none) =
    entries.filterMap fun (name, node) => if node.isDirectory then some name else none := by
  induction entries with
  | nil => rfl
  | cons entry entries ih =>
    obtain ⟨name, node⟩ := entry
    have hdirectory := isDirectory_cleanNode place name node
    rw [cleanEntries_cons, List.filterMap_append, ih, List.filterMap_cons]
    cases hleft : (cleanNode place name node).2 with
    | none =>
      rw [hleft] at hdirectory
      simp [← hdirectory]
    | some left =>
      rw [hleft] at hdirectory
      simp only [Option.any_some] at hdirectory
      cases hnode : node.isDirectory <;> simp [hdirectory, hnode]

end

end

/-! ## Paths -/

namespace Node
variable {place : TreePath} {name : String} {node : Node} {entries : List (String × Node)}

theorem mem_filesOf {file : TreePath × ByteArray} (hentry : (name, node) ∈ entries)
    (hfile : file ∈ node.filesAt (place ++ [name])) : file ∈ filesOf place entries := by
  induction entries with
  | nil => exact absurd hentry List.not_mem_nil
  | cons entry entries ih =>
    rw [filesOf]
    rcases List.mem_cons.1 hentry with rfl | hentry
    · exact List.mem_append_left _ hfile
    · exact List.mem_append_right _ (ih hentry)

mutual

/-- All directories of a tree have distinct names in them. -/
def Distinct : Node → Prop
  | .file _ => True
  | .directory entries => (Named.names entries).Nodup ∧ DistinctBelow entries

def DistinctBelow : List (String × Node) → Prop
  | [] => True
  | (_, node) :: entries => node.Distinct ∧ DistinctBelow entries

end

theorem DistinctBelow.of_mem (h : DistinctBelow entries) (hentry : (name, node) ∈ entries) :
    node.Distinct := by
  induction entries with
  | nil => exact absurd hentry List.not_mem_nil
  | cons entry entries ih =>
    obtain ⟨hfirst, hrest⟩ : entry.2.Distinct ∧ DistinctBelow entries := h
    rcases List.mem_cons.1 hentry with rfl | hentry
    · exact hfirst
    · exact ih hrest hentry

mutual

theorem prefix_filesAt (place : TreePath) : ∀ (node : Node), ∀ found ∈ node.filesAt place,
    place <+: found.1
  | .file _, found, hfound => by
    obtain rfl := List.mem_singleton.1 hfound
    exact List.prefix_rfl
  | .directory entries, found, hfound => by
    obtain ⟨name, -, hname⟩ := prefix_filesOf place entries found hfound
    exact (List.prefix_append _ _).trans hname

theorem prefix_filesOf (place : TreePath) : ∀ (entries : List (String × Node)),
    ∀ found ∈ filesOf place entries, ∃ name ∈ Named.names entries, place ++ [name] <+: found.1
  | [], _, hfound => absurd hfound List.not_mem_nil
  | (name, node) :: entries, found, hfound => by
    rw [filesOf] at hfound
    rcases List.mem_append.1 hfound with hfound | hfound
    · exact ⟨name, List.mem_cons_self, prefix_filesAt _ node found hfound⟩
    · obtain ⟨other, hother, hprefix⟩ := prefix_filesOf place entries found hfound
      exact ⟨other, List.mem_cons_of_mem _ hother, hprefix⟩

end

/-- Two paths that go on with different names are different. -/
theorem eq_of_prefix_concat {other : String} {path : TreePath} (h : place ++ [name] <+: path)
    (hother : place ++ [other] <+: path) : name = other := by
  have hsame := List.prefix_of_prefix_length_le h hother (by simp)
  exact List.singleton_inj.1 (List.append_inj' (hsame.eq_of_length (by simp)) rfl).2

mutual

theorem nodup_filesAt (place : TreePath) : ∀ {node : Node}, node.Distinct →
    ((node.filesAt place).map (·.1)).Nodup
  | .file _, _ => List.nodup_singleton _
  | .directory _, h => nodup_filesOf place h.1 h.2

theorem nodup_filesOf (place : TreePath) : ∀ {entries : List (String × Node)},
    (Named.names entries).Nodup → DistinctBelow entries →
      ((filesOf place entries).map (·.1)).Nodup
  | [], _, _ => List.nodup_nil
  | (name, node) :: entries, hnames, hbelow => by
    rw [Named.names, List.map_cons, List.nodup_cons] at hnames
    rw [filesOf, List.map_append, List.nodup_append]
    refine ⟨nodup_filesAt _ hbelow.1, nodup_filesOf place hnames.2 hbelow.2, ?_⟩
    intro path hpath path' hpath' heq
    obtain ⟨first, hfirst, rfl⟩ := List.mem_map.1 hpath
    obtain ⟨second, hsecond, rfl⟩ := List.mem_map.1 hpath'
    have hprefix := prefix_filesAt _ node first hfirst
    obtain ⟨other, hother, hprefix'⟩ := prefix_filesOf place entries second hsecond
    rw [heq] at hprefix
    exact hnames.1 (eq_of_prefix_concat hprefix hprefix' ▸ hother)

end

end Node

/-- Among files with distinct paths the blank ones are told by their paths. -/
theorem filter_not_spent {files : List (TreePath × ByteArray)} (h : (files.map (·.1)).Nodup) :
    (files.filter fun file => !isSpent file) =
      files.filter fun file => file.1 ∉ (CleanupReport.ofFiles files).removed := by
  refine List.filter_congr fun file hfile => ?_
  rw [Bool.eq_iff_iff, Bool.not_eq_true', decide_eq_true_eq, CleanupReport.ofFiles, List.mem_map,
    ← Bool.not_eq_true]
  refine not_congr ⟨fun hspent => ⟨file, List.mem_filter.2 ⟨hfile, hspent⟩, rfl⟩, ?_⟩
  rintro ⟨other, hother, hpath⟩
  obtain ⟨hother, hspent⟩ := List.mem_filter.1 hother
  rwa [← List.inj_on_of_nodup_map h hother hfile hpath]

end RecordShelf

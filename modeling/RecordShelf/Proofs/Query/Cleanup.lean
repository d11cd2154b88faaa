import RecordShelf.Proofs.Query.Failures
import RecordShelf.Proofs.Query.Listings
import RecordShelf.Proofs.Shelf.CleanTree

/-!
# Clean-up and readers

A clean-up takes away blank record files only, and these are no records to any reader. So all that
is read from the shelf stays the same, and a second clean-up finds nothing to do.
-/

namespace RecordShelf

theorem stem?_of_isTable {table : String} (h : Names.isTable table = true) :
    stem? table = none := by
  cases hstem : stem? table with
  | none => rfl
  | some key =>
    have hdot : '.' ∈ table.toList := by
      rw [← fileName_of_stem? hstem, fileName, String.toList_append]
      exact List.mem_append_right _ (by decide)
    exact absurd (List.all_eq_true.1 (Names.all_of_isTable h) _ hdot) (by decide)

namespace Shelf
variable {s s' : Shelf} {table key : String} {tables : List (String × Node)}

/-- All files in the data directory, with their paths. -/
def files (s : Shelf) : List (TreePath × ByteArray) :=
  match s.root with
  | some node => node.files
  | none => []

/-- No directory has two entries of one name. -/
def Distinct (s : Shelf) : Prop := ∀ node ∈ s.root, node.Distinct

/-- The shelf when a clean-up has gone through its directory. -/
def swept (s : Shelf) (tables : List (String × Node)) : Shelf :=
  { s with root := some (.directory (cleanEntries [] tables).2) }

/-! ## Reading what is left -/

/-- What is removed of a file is no record. -/
theorem decode_of_gone {place : TreePath} {name : String} {content : ByteArray}
    (h : ¬(cleanFile place name content).2 = true) : RecordFile.decode content = none := by
  rw [cleanFile_eq, Bool.not_eq_true', Bool.not_eq_false, isSpent, Bool.and_eq_true] at h
  exact if_pos h.2

/-- A listing passes over blank files. -/
theorem scanEntries_cleanEntries (hideCounter : Bool) (place : TreePath) (entries : Entries) :
    scanEntries hideCounter (cleanEntries place entries).2 = scanEntries hideCounter entries := by
  induction entries with
  | nil => rw [cleanEntries]
  | cons entry entries ih =>
    obtain ⟨name, node⟩ := entry
    rw [cleanEntries_cons]
    cases node with
    | directory es =>
      rw [cleanNode_directory, Option.map_some, Option.toList_some, List.singleton_append,
        scanEntries_first, scanEntries_first, ih]
      cases recordKey? hideCounter name <;> rfl
    | file content =>
      rw [cleanNode_file]
      split_ifs with hstays
      · rw [Option.map_some, Option.toList_some, List.singleton_append, scanEntries_first,
          scanEntries_first, ih]
      · have hdecode := decode_of_gone hstays
        rw [Option.map_none, Option.toList_none, List.nil_append, ih, scanEntries_first]
        cases recordKey? hideCounter name with
        | none => rfl
        | some key => simp only [hdecode]

theorem tables_swept (hroot : s.root = some (.directory tables)) :
    (s.swept tables).tables = s.tables := by
  have hlisted : (s.swept tables).listed =
      if s.location.isEmpty then none else some (.directory (cleanEntries [] tables).2) := rfl
  rw [Shelf.tables, Shelf.tables, hlisted, listed, hroot]
  split_ifs
  · rfl
  · simp only [directories_cleanEntries]

section
variable (hroot : s.root = some (.directory tables)) (hnames : (Named.names tables).Nodup)
include hroot hnames

/-- The directory of a table is cleaned like the others, and a file with the name of a table stays.
-/
theorem tableEntries_swept (htable : Names.isTable table = true) :
    (s.swept tables).tableEntries table =
      (s.tableEntries table).map fun entries => (cleanEntries [table] entries).2 := by
  simp only [tableEntries, swept, hroot, get?_cleanEntries [] hnames]
  cases Named.get? tables table with
  | none => rfl
  | some node =>
    cases node with
    | file content =>
      rw [Option.bind_some, cleanNode_file, cleanFile, stem?_of_isTable htable]
      rfl
    | directory entries =>
      rw [Option.bind_some, cleanNode_directory]
      rfl

theorem scan_swept (table : String) : (s.swept tables).scan table = s.scan table := by
  rw [scan, scan]
  cases hcheck : checkTable table with
  | error e => rfl
  | ok _ =>
    rw [ok_bind, ok_bind, tableEntries_swept hroot hnames (isTable_of_checkTable hcheck)]
    cases s.tableEntries table with
    | error cause => cases cause <;> rfl
    | ok entries =>
      simp only [Except.map, scanEntries_cleanEntries]
      rfl

theorem get_swept (htables : ∀ entries, s.tableEntries table = .ok entries → entries.names.Nodup)
    (key : String) : (s.swept tables).get table key = s.get table key := by
  cases hcheck : checkRecord table key with
  | error e => rw [get, get, hcheck, error_bind, error_bind]
  | ok _ =>
    obtain ⟨hkey, htable⟩ := isKey_of_checkRecord hcheck
    have hswept := tableEntries_swept hroot hnames htable
    cases he : s.tableEntries table with
    | error cause =>
      rw [he] at hswept
      exact get_congr (by rw [readFile_of_error he, readFile_of_error hswept]) rfl
    | ok entries =>
      rw [he] at hswept
      have hleft := get?_cleanEntries [table] (htables entries he) (fileName key)
      have hread := readFile_of_ok he (fileName key)
      have hread' := readFile_of_ok hswept (fileName key)
      split_ifs at hread hread' with hfits
      · cases hget : entries.get? (fileName key) with
        | none =>
          rw [get_of_absent hkey htable he hfits hget]
          rw [hget] at hleft
          exact get_of_absent hkey htable hswept hfits hleft
        | some node =>
          rw [hget, Option.bind_some] at hleft
          cases node with
          | directory es =>
            rw [hget] at hread
            rw [hleft, cleanNode_directory] at hread'
            exact get_congr (hread'.trans hread.symm) rfl
          | file content =>
            rw [cleanNode_file] at hleft
            rw [hget] at hread
            split_ifs at hleft with hstays
            · rw [hleft] at hread'
              exact get_congr (hread'.trans hread.symm) rfl
            · rw [get_of_absent hkey htable hswept hfits hleft,
                get_of_readFile_ok hkey htable hread, decode_of_gone hstays]
      · exact get_congr (hread'.trans hread.symm) rfl

/-- Directories are where they were. -/
theorem isDirectory_swept (hdistinct : ∀ entries, s.tableEntries table = .ok entries →
    entries.names.Nodup) (htable : Names.isTable table = true) (name : String) :
    (((s.swept tables).entriesOf table).get? name).any Node.isDirectory =
      ((s.entriesOf table).get? name).any Node.isDirectory := by
  rw [entriesOf, entriesOf, tableEntries_swept hroot hnames htable]
  cases he : s.tableEntries table with
  | error cause => rfl
  | ok entries =>
    have hleft := get?_cleanEntries [table] (hdistinct entries he) name
    simp only [Except.map, Except.toOption, Option.getD_some, hleft]
    cases entries.get? name with
    | none => rfl
    | some node => exact isDirectory_cleanNode [table] name node

end

theorem not_directory_iff {node : Option Node} :
    (∀ es, node ≠ some (.directory es)) ↔ node.any Node.isDirectory = false := by
  cases node with
  | none => simp
  | some node => cases node <;> simp [Node.isDirectory]

theorem clear_iff : s.Clear table key ↔ s.tableEntries table ≠ .error .notDirectory ∧
    ((s.entriesOf table).get? (fileName key)).any Node.isDirectory = false ∧
    ((s.entriesOf table).get? (s.temporaryName key)).any Node.isDirectory = false :=
  ⟨fun h => ⟨h.above, not_directory_iff.1 h.record, not_directory_iff.1 h.temporary⟩,
    fun h => ⟨h.1, not_directory_iff.2 h.2.1, not_directory_iff.2 h.2.2⟩⟩

end Shelf

namespace ShelfM
open RecordShelf.Shelf
variable {s s' : Shelf} {table : String}

/-- The next number is handed out when the counter can be written. -/
theorem run_nextId {counter : Option Record} (h : s.get table counterKey = .ok counter) :
    ((nextId table).run s).1 = ((put table counterKey
      [(counterKey, .ofInt64 (lastId counter + 1))]).run s).1.map fun _ => lastId counter + 1 := by
  have hread : (get table counterKey).run s = (.ok counter, s) := by rw [get, run_read, h]
  rw [nextId, run_bind_of_ok hread]
  dsimp only
  cases hput : (put table counterKey [(counterKey, .ofInt64 (lastId counter + 1))]).run s with
  | mk outcome s₁ =>
    cases outcome with
    | ok _ =>
      rw [run_bind_of_ok hput]
      rfl
    | error e =>
      rw [run_bind_of_error hput]
      rfl

/-- The next number depends on what the counter reads and on what is in the way of writing it. -/
theorem nextId_congr (hget : s'.get table counterKey = s.get table counterKey)
    (hfree : Names.isTable table = true →
      (s'.Clear table counterKey ∧ Node.fits (s'.temporaryName counterKey) = true ↔
        s.Clear table counterKey ∧ Node.fits (s.temporaryName counterKey) = true)) :
    ((nextId table).run s').1.toOption = ((nextId table).run s).1.toOption := by
  cases hcounter : s.get table counterKey with
  | error e =>
    have hread : (get table counterKey).run s = (.error e, s) := by rw [get, run_read, hcounter]
    have hread' : (get table counterKey).run s' = (.error e, s') := by
      rw [get, run_read, hget, hcounter]
    rw [nextId, run_bind_of_error hread, run_bind_of_error hread']
  | ok counter =>
    obtain ⟨hkey, htable⟩ := isKey_of_get hcounter
    let next : Record := [(counterKey, .ofInt64 (lastId counter + 1))]
    have hstored : (∃ s₁, (put table counterKey next).run s' = (.ok (), s₁)) ↔
        ∃ s₁, (put table counterKey next).run s = (.ok (), s₁) :=
      ((put_ok_iff hkey htable).trans (hfree htable)).trans (put_ok_iff hkey htable).symm
    rw [run_nextId hcounter, run_nextId (hget.trans hcounter)]
    change ((((put table counterKey next).run s').1.map _).toOption) =
      (((put table counterKey next).run s).1.map _).toOption
    generalize (put table counterKey next).run s = here at hstored ⊢
    generalize (put table counterKey next).run s' = there at hstored ⊢
    obtain ⟨first, s₁⟩ := here
    obtain ⟨second, s₂⟩ := there
    cases first with
    | ok _ =>
      obtain ⟨s₃, h⟩ := hstored.2 ⟨s₁, rfl⟩
      obtain rfl := (Prod.mk.inj h).1
      rfl
    | error e =>
      cases second with
      | ok _ =>
        obtain ⟨s₃, h⟩ := hstored.1 ⟨s₂, rfl⟩
        exact absurd (Prod.mk.inj h).1 (by simp)
      | error _ => rfl

end ShelfM

/-! ## Files -/

namespace CleanupReport
variable {r : CleanupReport} {path : TreePath}

@[simp] theorem mem_removed_sorted : path ∈ r.sorted.removed ↔ path ∈ r.removed :=
  List.mem_mergeSort

@[simp] theorem mem_invalid_sorted : path ∈ r.sorted.invalid ↔ path ∈ r.invalid :=
  List.mem_mergeSort

@[simp] theorem length_removed_sorted (r : CleanupReport) :
    r.sorted.removed.length = r.removed.length :=
  List.length_mergeSort _

end CleanupReport

namespace Shelf
variable {s : Shelf} {table key : String} {tables : List (String × Node)} {entries : Entries}
  {r : Record} {rows : List (String × Record)}

theorem files_eq (hroot : s.root = some (.directory tables)) :
    s.files = Node.filesOf [] tables := by
  rw [files, hroot]
  rfl

theorem mem_files {name : String} {content : ByteArray} (he : s.tableEntries table = .ok entries)
    (hfile : (name, .file content) ∈ entries) : ([table, name], content) ∈ s.files := by
  obtain ⟨tables, hroot, hget⟩ := tableEntries_eq_ok_iff.1 he
  rw [files_eq hroot]
  exact Node.mem_filesOf (Named.mem_of_get? hget)
    (Node.mem_filesOf hfile (List.mem_singleton_self _))

/-- What is read is in a file. -/
theorem path_of_get (h : s.get table key = .ok (some r)) :
    [table, fileName key] ∈ s.files.map (·.1) := by
  obtain ⟨entries, content, he, hfile, -⟩ := file_of_get h
  exact List.mem_map.2 ⟨_, mem_files he (Named.mem_of_get? hfile), rfl⟩

theorem path_of_scan (h : s.scan table = .ok rows) (hkey : key ∈ rows.map (·.1)) :
    [table, fileName key] ∈ s.files.map (·.1) := by
  obtain ⟨row, hrow, rfl⟩ := List.mem_map.1 hkey
  obtain ⟨-, ⟨-, rfl⟩ | ⟨entries, he, hentries⟩⟩ := scan_ok h
  · exact absurd hrow List.not_mem_nil
  · obtain ⟨-, content, hfile, -⟩ := shows_of_scanEntries hentries row hrow
    exact List.mem_map.2 ⟨_, mem_files he hfile, rfl⟩

theorem Distinct.names (hs : s.Distinct) (hroot : s.root = some (.directory tables)) :
    (Named.names tables).Nodup :=
  (hs _ hroot).1

theorem Distinct.names_entries (hs : s.Distinct) (he : s.tableEntries table = .ok entries) :
    entries.names.Nodup := by
  obtain ⟨tables, hroot, hget⟩ := tableEntries_eq_ok_iff.1 he
  exact ((hs _ hroot).2.of_mem (Named.mem_of_get? hget)).1

theorem files_swept (hroot : s.root = some (.directory tables)) :
    (s.swept tables).files = s.files.filter fun file => !isSpent file := by
  rw [files_eq hroot, files_eq rfl]
  exact (cleanEntries_files [] tables).2

/-- The files that are gone are told by their paths. -/
theorem files_swept_of_distinct (hs : s.Distinct) (hroot : s.root = some (.directory tables)) :
    (s.swept tables).files =
      s.files.filter fun file => file.1 ∉ (CleanupReport.ofFiles s.files).removed := by
  rw [files_swept hroot]
  refine filter_not_spent ?_
  rw [files_eq hroot]
  exact Node.nodup_filesAt [] (hs _ hroot)

end Shelf

namespace ShelfM
open RecordShelf.Shelf
variable {s : Shelf} {tables : List (String × Node)}

theorem run_cleanup (hplace : s.location.isEmpty = false)
    (hroot : s.root = some (.directory tables)) :
    cleanup.run s = (.ok (CleanupReport.ofFiles s.files).sorted, s.swept tables) := by
  have hlisted : s.listed = some (.directory tables) := by
    rw [listed, hplace, hroot]
    rfl
  rw [cleanup, run_bind_of_ok (run_getThe s), hlisted, files_eq hroot,
    ← (cleanEntries_files [] tables).1]
  rfl

/-- What a clean-up has left is left by the next one. -/
theorem run_cleanup_swept (hplace : s.location.isEmpty = false)
    (hroot : s.root = some (.directory tables)) :
    cleanup.run (s.swept tables) =
      (.ok ⟨(CleanupReport.ofFiles s.files).scanned -
          (CleanupReport.ofFiles s.files).removed.length, [],
        (CleanupReport.ofFiles s.files).sorted.invalid⟩, s.swept tables) := by
  have hagain : (s.swept tables).swept (cleanEntries [] tables).2 = s.swept tables := by
    rw [swept, cleanEntries_again]
    rfl
  rw [run_cleanup (s := s.swept tables) hplace rfl, hagain, files_swept hroot,
    (CleanupReport.ofFiles_left s.files).2, CleanupReport.sorted, List.mergeSort_nil]
  rfl

/-- Where no directory can be listed there is nothing to clean up. -/
theorem run_cleanup_unlisted (h : ∀ tables, s.listed ≠ some (.directory tables)) :
    cleanup.run s = (.ok .empty, s) := by
  rw [cleanup, run_bind_of_ok (run_getThe s)]
  cases hlisted : s.listed with
  | none => rfl
  | some node =>
    cases node with
    | file content => rfl
    | directory tables => exact absurd hlisted (h tables)

end ShelfM

/-! ## The whole -/

namespace Query
variable {s : Shelf}

/-- All that is read, and every number that a counter hands out, is the same in the second shelf. -/
structure SameReads (s s' : Shelf) : Prop where
  get : ∀ table key, s'.get table key = s.get table key
  scan : ∀ table, s'.scan table = s.scan table
  list : ∀ table, s'.list table = s.list table
  tables : s'.tables = s.tables
  select : ∀ rules select params, ((executeSelect rules select params).run s').1 =
    ((executeSelect rules select params).run s).1
  nextId : ∀ table,
    ((ShelfM.nextId table).run s').1.toOption = ((ShelfM.nextId table).run s).1.toOption

theorem SameReads.refl (s : Shelf) : SameReads s s :=
  ⟨fun _ _ => rfl, fun _ => rfl, fun _ => rfl, rfl, fun _ _ _ => rfl, fun _ => rfl⟩

theorem sameReads_swept {tables : List (String × Node)} (hs : s.Distinct)
    (hroot : s.root = some (.directory tables)) : SameReads s (s.swept tables) := by
  have hnames := hs.names hroot
  have hget : ∀ table key, (s.swept tables).get table key = s.get table key := fun table key =>
    Shelf.get_swept hroot hnames (fun entries he => hs.names_entries he) key
  have hscan : ∀ table, (s.swept tables).scan table = s.scan table := Shelf.scan_swept hroot hnames
  refine ⟨hget, hscan, fun table => ?_, Shelf.tables_swept hroot, fun rules select params => ?_,
    fun table => ?_⟩
  · rw [Shelf.list, Shelf.list, hscan]
  · cases hrows : s.scan select.table with
    | error e =>
      rw [run_executeSelect_error hrows, run_executeSelect_error ((hscan _).trans hrows)]
    | ok rows => rw [run_executeSelect hrows, run_executeSelect ((hscan _).trans hrows)]
  · refine ShelfM.nextId_congr (hget table counterKey) fun htable => and_congr_left fun _ => ?_
    have hdirectories := Shelf.isDirectory_swept hroot hnames
      (fun entries he => hs.names_entries he) htable
    have habove : (s.swept tables).tableEntries table ≠ .error .notDirectory ↔
        s.tableEntries table ≠ .error .notDirectory := by
      rw [Shelf.tableEntries_swept hroot hnames htable]
      cases s.tableEntries table <;> simp [Except.map]
    rw [Shelf.clear_iff, Shelf.clear_iff, habove, hdirectories, hdirectories]
    rfl

/-- No record was read or listed from a file that is gone. -/
theorem SameReads.unread {s' : Shelf} {table key : String} (h : SameReads s s')
    (hgone : [table, fileName key] ∉ s'.files.map (·.1)) :
    (∀ r, s.get table key ≠ .ok (some r)) ∧
      ∀ rows, s.scan table = .ok rows → key ∉ rows.map (·.1) :=
  ⟨fun _ hget => hgone (Shelf.path_of_get ((h.get table key).trans hget)),
    fun _ hscan hkey => hgone (Shelf.path_of_scan ((h.scan table).trans hscan) hkey)⟩

/-- A clean-up is not seen by any reader. Everything that is read and every number that is handed
out is as before; no file is removed from which a record was read or listed; what is not removed is
as it was, with all the damaged files; and a second clean-up removes nothing, finds the same damaged
files and looks at as many files as are left. -/
theorem cleanup_unseen (hs : s.Distinct) : ∃ report s', ShelfM.cleanup.run s = (.ok report, s') ∧
    SameReads s s' ∧
    (∀ table key, [table, fileName key] ∈ report.removed →
      (∀ r, s.get table key ≠ .ok (some r)) ∧
        ∀ rows, s.scan table = .ok rows → key ∉ rows.map (·.1)) ∧
    s'.files = s.files.filter (fun file => file.1 ∉ report.removed) ∧
    (∀ path ∈ report.removed, path ∈ s.files.map (·.1)) ∧
    (∀ path ∈ report.invalid, path ∈ s'.files.map (·.1)) ∧
    report.removed.length ≤ report.scanned ∧
    ShelfM.cleanup.run s' =
      (.ok ⟨report.scanned - report.removed.length, [], report.invalid⟩, s') := by
  by_cases hlisted : ∃ tables, s.listed = some (.directory tables)
  · obtain ⟨tables, hlisted⟩ := hlisted
    rw [Shelf.listed] at hlisted
    split_ifs at hlisted with hplace
    rw [Bool.not_eq_true] at hplace
    have hsame := sameReads_swept hs hlisted
    have hfiles := Shelf.files_swept_of_distinct hs hlisted
    have hagain := ShelfM.run_cleanup_swept hplace hlisted
    refine ⟨_, _, ShelfM.run_cleanup hplace hlisted, hsame, fun table key hremoved => ?_, ?_,
      fun path hremoved => ?_, fun path hinvalid => ?_, ?_, ?_⟩
    · refine hsame.unread fun hleft => ?_
      obtain ⟨file, hfile, hpath⟩ := List.mem_map.1 hleft
      rw [hfiles, List.mem_filter, decide_eq_true_eq, hpath] at hfile
      exact hfile.2 (CleanupReport.mem_removed_sorted.1 hremoved)
    · simpa only [CleanupReport.mem_removed_sorted] using hfiles
    · exact CleanupReport.path_of_removed (CleanupReport.mem_removed_sorted.1 hremoved)
    · rw [Shelf.files_swept hlisted]
      exact CleanupReport.path_of_invalid (CleanupReport.mem_invalid_sorted.1 hinvalid)
    · rw [CleanupReport.length_removed_sorted]
      exact (CleanupReport.ofFiles_left s.files).1
    · rw [CleanupReport.length_removed_sorted]
      exact hagain
  · have hnone : ∀ tables, s.listed ≠ some (.directory tables) := fun tables h =>
      hlisted ⟨tables, h⟩
    have hempty := ShelfM.run_cleanup_unlisted hnone
    refine ⟨.empty, s, hempty, .refl s, fun _ _ h => absurd h List.not_mem_nil, ?_,
      fun _ h => absurd h List.not_mem_nil, fun _ h => absurd h List.not_mem_nil, Nat.le_refl _,
      hempty⟩
    exact (List.filter_eq_self.2 fun _ _ => decide_eq_true List.not_mem_nil).symm

/-- A numbered table with a blank counter, a record, and files that are blank or damaged, and beside
the tables a blank file deeper down. -/
def spentTickets : Shelf := ⟨"data", ["tickets"], 1, 0, some (.directory
  [("tickets", .directory
    [("last_id.json", .file " \n".toUTF8), ("1.json", .file (RecordFile.encode [("id", .ofNat 1)])),
      ("2.json", .file "".toUTF8), ("4.json", .file "\x7boops".toUTF8),
      ("readme.txt", .file "".toUTF8)]),
    ("archive", .directory [("2024", .directory [("3.json", .file "\t".toUTF8)])])])⟩

theorem cleanup_unseen_spentTickets : spentTickets.Distinct ∧ ∃ report s',
    ShelfM.cleanup.run spentTickets = (.ok report, s') ∧
    ["tickets", "last_id.json"] ∈ report.removed ∧ ["archive", "2024", "3.json"] ∈ report.removed ∧
    s'.get "tickets" "1" = .ok (some [("id", .ofNat 1)]) ∧
    ∃ second, ShelfM.cleanup.run s' = (.ok second, s') ∧ second.removed = [] := by
  have hdistinct : spentTickets.Distinct := by
    intro node hnode
    obtain rfl := Option.some.inj hnode
    exact ⟨by decide, ⟨by decide, trivial, trivial, trivial, trivial, trivial, trivial⟩,
      ⟨by decide, ⟨by decide, trivial, trivial⟩, trivial⟩, trivial⟩
  have hstorable : Storable [("id", .ofNat 1)] := ⟨⟨by decide, trivial, trivial⟩, by decide⟩
  have hholds : spentTickets.Holds "tickets" "1" [("id", .ofNat 1)] :=
    ⟨by decide, by decide, hstorable, by decide, _, rfl, rfl⟩
  have hspent : ∀ path ∈ [["tickets", "last_id.json"], ["archive", "2024", "3.json"]],
      path ∈ (CleanupReport.ofFiles spentTickets.files).sorted.removed := by
    intro path hpath
    rw [CleanupReport.mem_removed_sorted]
    revert path
    decide
  obtain ⟨report, s', hrun, hsame, -, -, -, -, -, hagain⟩ := cleanup_unseen hdistinct
  obtain ⟨hreport, -⟩ := Prod.mk.inj (hrun.symm.trans (ShelfM.run_cleanup rfl rfl))
  obtain rfl := Except.ok.inj hreport
  refine ⟨hdistinct, _, s', hrun, hspent _ (by decide), hspent _ (by decide), ?_, _, hagain, rfl⟩
  exact (hsame.get "tickets" "1").trans hholds.get

end Query

end RecordShelf

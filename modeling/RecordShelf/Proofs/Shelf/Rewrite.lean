import RecordShelf.Proofs.Shelf.Steps
import RecordShelf.Proofs.Shelf.Stored

/-!
# Writing over records of a table

A record that a listing shows is written over where it stands. The file of the record is replaced, a
file that has the name of the temporary one is used up, and all other entries stay as they are, in
their places. The write fails only if the temporary file cannot be made, and then it changes
nothing.
-/

namespace RecordShelf

theorem Named.insert_eq_map {α : Type} {r : Named α} {name : String} (value : α)
    (h : r.names.Nodup) (hmem : name ∈ r.names) :
    r.insert name value = r.map fun entry => if entry.1 = name then (name, value) else entry := by
  induction r with
  | nil => exact nomatch hmem
  | cons entry r ih =>
    obtain ⟨k, v⟩ := entry
    rw [names, List.map_cons, List.nodup_cons] at h
    by_cases hk : k = name
    · subst hk
      have hrest : (r.map fun entry => if entry.1 = k then (k, value) else entry) = r := by
        refine (List.map_congr_left fun entry hentry => if_neg ?_).trans (List.map_id' r)
        rintro rfl
        exact h.1 (List.mem_map.2 ⟨entry, hentry, rfl⟩)
      rw [insert, if_pos rfl, List.map_cons, if_pos rfl, hrest]
    · have hrest : name ∈ names r := (List.mem_cons.1 hmem).resolve_left (Ne.symm hk)
      rw [insert, if_neg hk, List.map_cons, if_neg hk, ih h.2 hrest]

theorem Named.get?_map {α β : Type} {g : String × α → String × β} (hg : ∀ entry, (g entry).1 = entry.1)
    (r : Named α) (name : String) :
    Named.get? (r.map g) name = (r.get? name).map fun value => (g (name, value)).2 := by
  induction r with
  | nil => rfl
  | cons entry r ih =>
    obtain ⟨k, v⟩ := entry
    have hfirst : g (k, v) = (k, (g (k, v)).2) := Prod.ext (hg (k, v)) rfl
    rw [List.map_cons, hfirst, get?, get?]
    split_ifs with hk
    · rw [hk]
      rfl
    · exact ih

namespace Shelf
variable {s : Shelf} {table key : String} {entries : Entries}

/-- The shelf when some more temporary files have been named. -/
def counting (s : Shelf) (n : ℕ) : Shelf := { s with written := s.written + n }

theorem counting_counting (s : Shelf) (m n : ℕ) : (s.counting m).counting n = s.counting (m + n) := by
  rw [counting, counting, counting, Nat.add_assoc]

theorem counting_setTable (s : Shelf) (table : String) (entries : Entries) (n : ℕ) :
    (s.setTable table entries).counting n = (s.counting n).setTable table entries := by
  unfold setTable counting
  dsimp only
  split <;> rfl

theorem temporaryName_setTable (s : Shelf) (table : String) (entries : Entries) (key : String) :
    (s.setTable table entries).temporaryName key = s.temporaryName key := by
  unfold setTable
  split <;> rfl

/-- The next temporary file can be made: its name is not too long and no directory has it. -/
def canWrite (s : Shelf) (entries : Entries) (key : String) : Bool :=
  Node.fits (s.temporaryName key) && !(entries.get? (s.temporaryName key)).any Node.isDirectory

theorem canWrite_iff : s.canWrite entries key = true ↔ Node.fits (s.temporaryName key) = true ∧
    ∀ es, entries.get? (s.temporaryName key) ≠ some (.directory es) := by
  rw [canWrite, Bool.and_eq_true, Bool.not_eq_true']
  refine and_congr_right fun _ => ?_
  cases entries.get? (s.temporaryName key) with
  | none => simp
  | some node => cases node <;> simp [Node.isDirectory]

/-- The entries when a record has been written over. -/
def putOver (s : Shelf) (entries : Entries) (key : String) (r : Record) : Entries :=
  (entries.erase (s.temporaryName key)).insert (fileName key) (.file (RecordFile.encode r))

/-- Where a directory stands one still stands, and nowhere else. -/
theorem isDirectory_putOver
    (hfree : ∀ es, entries.get? (fileName key) ≠ some (.directory es))
    (hdistinct : entries.names.Nodup) (hwrite : s.canWrite entries key = true) (r : Record)
    (name : String) :
    ((s.putOver entries key r).get? name).any Node.isDirectory =
      (entries.get? name).any Node.isDirectory := by
  rw [putOver]
  by_cases hname : name = fileName key
  · subst hname
    rw [Named.get?_insert_self]
    cases hget : entries.get? (fileName key) with
    | none => rfl
    | some node =>
      cases node with
      | file content => rfl
      | directory es => exact absurd hget (hfree es)
  · rw [Named.get?_insert_of_ne _ _ hname]
    by_cases htemporary : name = s.temporaryName key
    · subst htemporary
      rw [canWrite, Bool.and_eq_true, Bool.not_eq_true'] at hwrite
      rw [Named.get?_erase_self hdistinct, hwrite.2]
      rfl
    · rw [Named.get?_erase_of_ne _ htemporary]

end Shelf

namespace ShelfM
open RecordShelf.Shelf
variable {s : Shelf} {table key : String} {entries : Entries}

/-- In a table that is there a record is written over or beside what is there. -/
theorem run_put_over (hkey : Names.isKey key = true) (htable : Names.isTable table = true)
    (he : s.tableEntries table = .ok entries)
    (hfree : ∀ es, entries.get? (fileName key) ≠ some (.directory es)) (r : Record) :
    (s.canWrite entries key = true → (put table key r).run s =
      (.ok (), (s.counting 1).setTable table (s.putOver entries key r))) ∧
    (s.canWrite entries key = false → ∃ path cause, (put table key r).run s =
      (.error (.io .fileWrite path cause), s.counting 1)) := by
  have hcheck : (ShelfM.read fun _ => checkRecord table key).run s = (.ok (), s) := by
    rw [run_read, checkRecord_eq hkey htable]
  have hcheckTable : (ShelfM.read fun _ => checkTable table).run s = (.ok (), s) := by
    rw [run_read, checkTable_eq htable]
  have hmade : (ensureTable table).run s = (.ok (), s) := by
    rw [ensureTable, run_bind_of_ok hcheckTable, run_bind_of_ok (run_getThe s)]
    exact run_step_of_ok (f := fun s => s.withTable table) (withTable_of_ok he)
  have hnamed : (nameTemporary key).run s = (.ok (s.temporaryName key), s.counting 1) := rfl
  have hthere : (s.counting 1).tableEntries table = .ok entries := he
  rw [put, run_bind_of_ok hcheck, run_bind_of_ok hmade, run_bind_of_ok hnamed,
    run_bind_of_ok (run_getThe _)]
  constructor
  · intro hwrite
    obtain ⟨hfits, htemporary⟩ := canWrite_iff.1 hwrite
    have hne : fileName key ≠ s.temporaryName key := fileName_ne_temporaryName s key key
    have hfree' : ∀ es, (entries.insert (s.temporaryName key) (.file (RecordFile.encode r))).get?
        (fileName key) ≠ some (.directory es) := by
      rwa [Named.get?_insert_of_ne _ _ hne]
    rw [run_bind_of_ok (run_step_of_ok (writeFile_eq hthere hfits htemporary)), run_publish,
      renameFile_eq (tableEntries_setTable_self hthere _) (fits_fileName_of_temporaryName hfits)
        (Named.get?_insert_self _ _ _) hfree', Named.erase_insert_self,
      setTable_setTable hthere]
    rfl
  · intro hwrite
    cases hwritten : (s.counting 1).writeFile table (s.temporaryName key) (RecordFile.encode r) with
    | error cause =>
      exact ⟨_, cause, run_bind_of_error (run_step_of_error hwritten)⟩
    | ok s₁ =>
      obtain ⟨there, hentries, hfits, htemporary, -⟩ := writeFile_ok hwritten
      obtain rfl := Except.ok.inj (hthere.symm.trans hentries)
      rw [canWrite_iff.2 ⟨hfits, htemporary⟩] at hwrite
      cases hwrite

end ShelfM

/-! ## Several records -/

namespace Shelf
variable {s : Shelf} {table key : String} {entries : Entries} {f : Record → Record}

/-- The names of the temporary files for some keys in turn. -/
def temporaryNames (s : Shelf) : List String → List String
  | [] => []
  | key :: keys => s.temporaryName key :: (s.counting 1).temporaryNames keys

/-- The records up to the first that cannot be written. -/
def writable (s : Shelf) (entries : Entries) : List (String × Record) → List (String × Record)
  | [] => []
  | row :: rows =>
    if s.canWrite entries row.1 then row :: (s.counting 1).writable entries rows else []

/-- An entry when some records have been changed: the file of such a record has what became of it.
-/
def revised (f : Record → Record) (rows : List (String × Record)) (entry : String × Node) :
    String × Node :=
  match rows.find? fun row => fileName row.1 = entry.1 with
  | some row => (entry.1, .file (RecordFile.encode (f row.2)))
  | none => entry

/-- The entries when some records have been changed: those with names of temporary files are used
up, all others stand in their places, and only the files of the records are revised. -/
def rewritten (s : Shelf) (f : Record → Record) (rows : List (String × Record)) (entries : Entries) :
    Entries :=
  (entries.filter fun entry => entry.1 ∉ s.temporaryNames (rows.map (·.1))).map (revised f rows)

theorem temporaryNames_setTable (s : Shelf) (table : String) (entries : Entries)
    (keys : List String) : (s.setTable table entries).temporaryNames keys = s.temporaryNames keys := by
  induction keys generalizing s with
  | nil => rfl
  | cons key keys ih =>
    rw [temporaryNames, temporaryNames, temporaryName_setTable, counting_setTable, ih]

theorem fileName_not_mem_temporaryNames (s : Shelf) (keys : List String) (key : String) :
    fileName key ∉ s.temporaryNames keys := by
  induction keys generalizing s with
  | nil => exact List.not_mem_nil
  | cons other keys ih =>
    rw [temporaryNames, List.mem_cons, not_or]
    exact ⟨fileName_ne_temporaryName s key other, ih _⟩

/-- What can be written depends on the directories among the entries only. -/
theorem writable_congr {there : Entries}
    (h : ∀ name, (there.get? name).any Node.isDirectory = (entries.get? name).any Node.isDirectory)
    (s : Shelf) (replaced : Entries) (rows : List (String × Record)) :
    (s.setTable table replaced).writable there rows = s.writable entries rows := by
  induction rows generalizing s with
  | nil => rfl
  | cons row rows ih =>
    rw [writable, writable, canWrite, canWrite, temporaryName_setTable, h, counting_setTable, ih]

theorem writable_isPrefix (s : Shelf) (entries : Entries) (rows : List (String × Record)) :
    s.writable entries rows <+: rows := by
  induction rows generalizing s with
  | nil => exact List.nil_prefix
  | cons row rows ih =>
    rw [writable]
    split_ifs
    · exact (List.prefix_cons_inj row).2 (ih _)
    · exact List.nil_prefix

/-- All records can be written when every temporary file can be made, each with a number of its own.
-/
theorem writable_eq_self_iff {s : Shelf} {rows : List (String × Record)} :
    s.writable entries rows = rows ↔
      ∀ i row, rows[i]? = some row → (s.counting i).canWrite entries row.1 = true := by
  induction rows generalizing s with
  | nil => simp [writable]
  | cons row rows ih =>
    rw [writable]
    constructor
    · intro hall i other hother
      split_ifs at hall with hwrite
      cases i with
      | zero =>
        obtain rfl := Option.some.inj hother
        exact hwrite
      | succ i =>
        have hrest := ih.1 (List.cons.inj hall).2 i other hother
        rwa [counting_counting, Nat.add_comm] at hrest
    · intro hall
      have hfirst : s.canWrite entries row.1 = true := hall 0 row rfl
      have hrest : (s.counting 1).writable entries rows = rows := ih.2 fun i other hother => by
        rw [counting_counting, Nat.add_comm]
        exact hall (i + 1) other hother
      rw [if_pos hfirst, hrest]

@[simp] theorem revised_fst (f : Record → Record) (rows : List (String × Record))
    (entry : String × Node) : (revised f rows entry).1 = entry.1 := by
  unfold revised
  split <;> rfl

theorem rewritten_setTable (s : Shelf) (table : String) (replaced : Entries) (f : Record → Record)
    (rows : List (String × Record)) (entries : Entries) :
    (s.setTable table replaced).rewritten f rows entries = s.rewritten f rows entries := by
  rw [rewritten, rewritten, temporaryNames_setTable]

theorem rewritten_nil (s : Shelf) (f : Record → Record) (entries : Entries) :
    s.rewritten f [] entries = entries := by
  have hkept : (entries.filter fun entry => entry.1 ∉ s.temporaryNames []) = entries :=
    List.filter_eq_self.2 fun entry _ => decide_eq_true List.not_mem_nil
  rw [rewritten, List.map_nil, hkept]
  exact List.map_id' entries

theorem revised_cons {row : String × Record} {rows : List (String × Record)}
    (hdistinct : fileName row.1 ∉ rows.map fun row => fileName row.1) (entry : String × Node) :
    revised f (row :: rows) entry = revised f rows (if entry.1 = fileName row.1 then
      (fileName row.1, .file (RecordFile.encode (f row.2))) else entry) := by
  by_cases hname : entry.1 = fileName row.1
  · have hnone : (rows.find? fun other => fileName other.1 = fileName row.1) = none := by
      rw [List.find?_eq_none]
      intro other hother heq
      exact hdistinct (of_decide_eq_true heq ▸ List.mem_map_of_mem hother)
    rw [if_pos hname, revised, List.find?_cons_of_pos (by simp [hname]), revised, hnone, hname]
  · rw [if_neg hname, revised, revised, List.find?_cons_of_neg (by simpa using Ne.symm hname)]

/-- One record after the other is written over. -/
theorem rewritten_cons {row : String × Record} {rows : List (String × Record)}
    (hentries : entries.names.Nodup) (hrow : fileName row.1 ∈ entries.names)
    (hdistinct : fileName row.1 ∉ rows.map fun row => fileName row.1) :
    s.rewritten f (row :: rows) entries =
      (s.counting 1).rewritten f rows (s.putOver entries row.1 (f row.2)) := by
  have hne : fileName row.1 ≠ s.temporaryName row.1 := fileName_ne_temporaryName s _ _
  have hmem : fileName row.1 ∈ (entries.erase (s.temporaryName row.1)).names := by
    obtain ⟨entry, hentry, hname⟩ := List.mem_map.1 hrow
    rw [Named.erase_eq_filter hentries]
    refine List.mem_map.2 ⟨entry, List.mem_filter.2 ⟨hentry, ?_⟩, hname⟩
    rw [decide_eq_true_eq, hname]
    exact hne
  have hover : s.putOver entries row.1 (f row.2) =
      (entries.filter fun entry => entry.1 ≠ s.temporaryName row.1).map fun entry =>
        if entry.1 = fileName row.1 then
          (fileName row.1, .file (RecordFile.encode (f row.2))) else entry := by
    rw [putOver, Named.insert_eq_map _ (Named.nodup_names_erase hentries _) hmem,
      Named.erase_eq_filter hentries]
  have hfst : ∀ entry : String × Node, (if entry.1 = fileName row.1 then
      (fileName row.1, Node.file (RecordFile.encode (f row.2))) else entry).1 = entry.1 := by
    intro entry
    split_ifs with hname
    · exact hname.symm
    · rfl
  rw [hover, rewritten, rewritten, List.filter_map, List.map_map, List.filter_filter]
  refine congrArg₂ _ (funext fun entry => revised_cons hdistinct entry) ?_
  refine List.filter_congr fun entry _ => ?_
  rw [Function.comp_apply, hfst]
  rw [Bool.eq_iff_iff]
  simp [temporaryNames, and_comm]

/-! ### What becomes of an entry -/

section
variable {rows : List (String × Record)}

theorem names_rewritten (s : Shelf) (f : Record → Record) (rows : List (String × Record))
    (entries : Entries) : (s.rewritten f rows entries).names =
      entries.names.filter (· ∉ s.temporaryNames (rows.map (·.1))) := by
  rw [rewritten, Named.names, List.map_map, Named.names, List.filter_map]
  exact List.map_congr_left fun entry _ => revised_fst f rows entry

theorem get?_rewritten {name : String} (h : name ∉ s.temporaryNames (rows.map (·.1))) :
    (s.rewritten f rows entries).get? name =
      (entries.get? name).map fun node => (revised f rows (name, node)).2 := by
  rw [rewritten, Named.get?_map (revised_fst f rows)]
  exact congrArg _ (Named.get?_filter entries
    (p := fun name => decide (name ∉ s.temporaryNames (rows.map (·.1)))) (decide_eq_true h))

/-- The file of a record has what became of the record. -/
theorem get?_rewritten_of_mem {row : String × Record} (hrow : row ∈ rows)
    (hdistinct : (rows.map fun row => fileName row.1).Nodup)
    (hthere : fileName row.1 ∈ entries.names) :
    (s.rewritten f rows entries).get? (fileName row.1) =
      some (.file (RecordFile.encode (f row.2))) := by
  have hfind : (rows.find? fun other => fileName other.1 = fileName row.1) = some row := by
    cases hfound : rows.find? fun other => fileName other.1 = fileName row.1 with
    | none => exact absurd (List.find?_eq_none.1 hfound row hrow) (by simp)
    | some other =>
      have hname := List.find?_some hfound
      rw [decide_eq_true_eq] at hname
      rw [List.inj_on_of_nodup_map hdistinct (List.mem_of_find?_eq_some hfound) hrow hname]
  obtain ⟨node, hnode⟩ : ∃ node, entries.get? (fileName row.1) = some node :=
    Option.ne_none_iff_exists'.1 fun hnone => Named.get?_eq_none_iff.1 hnone hthere
  rw [get?_rewritten (fileName_not_mem_temporaryNames s _ _), hnode, Option.map_some, revised, hfind]

/-- Any other entry that no temporary file replaces stays as it is. -/
theorem get?_rewritten_of_not_mem {name : String} (h : name ∉ rows.map fun row => fileName row.1)
    (htemporary : name ∉ s.temporaryNames (rows.map (·.1))) :
    (s.rewritten f rows entries).get? name = entries.get? name := by
  have hfind : (rows.find? fun row => fileName row.1 = name) = none := by
    rw [List.find?_eq_none]
    intro row hrow heq
    exact h (List.mem_map.2 ⟨row, hrow, of_decide_eq_true heq⟩)
  rw [get?_rewritten htemporary]
  cases entries.get? name with
  | none => rfl
  | some node => rw [Option.map_some, revised, hfind]

end

end Shelf

end RecordShelf

import RecordShelf.Proofs.Shelf.RecordFile
import RecordShelf.Proofs.Shelf.Tables

/-!
# Storing a record

Every run of `put` is described once: where a directory or a name that is too long stands in the
way, it fails and the table keeps its records; otherwise the table has the record's file in its
place and nothing else has changed. That a record is read back as it was stored follows from it.
-/

namespace RecordShelf

/-! ## Names of files -/

theorem fileName_injective {k key : String} (h : fileName k = fileName key) : k = key :=
  (String.append_left_inj recordSuffix).1 h

theorem fileName_ne_temporaryName (s : Shelf) (k key : String) :
    fileName k ≠ s.temporaryName key := by
  intro h
  have hjson : (fileName k).toList.getLast? = some 'n' := by
    rw [fileName, String.toList_append, List.getLast?_append]
    rfl
  have htmp : (s.temporaryName key).toList.getLast? = some 'p' := by
    rw [Shelf.temporaryName, String.toList_append, List.getLast?_append]
    rfl
  rw [h, htmp] at hjson
  exact absurd hjson (by decide)

theorem fits_fileName_of_temporaryName {s : Shelf} {key : String}
    (h : Node.fits (s.temporaryName key) = true) : Node.fits (fileName key) = true := by
  simp only [Node.fits, decide_eq_true_eq, Shelf.temporaryName, fileName, recordSuffix,
    String.utf8ByteSize_append] at h ⊢
  have hdot : ".".utf8ByteSize = 1 := by decide
  have hjson : ".json".utf8ByteSize = 5 := by decide
  have htmp : ".tmp".utf8ByteSize = 4 := by decide
  omega

namespace Shelf
variable {s s' : Shelf} {table key : String} {entries : Entries}

theorem checkRecord_eq (hkey : Names.isKey key = true) (htable : Names.isTable table = true) :
    checkRecord table key = .ok () := by
  have hk : Names.problem? .key key = none := by simpa [Names.isKey] using hkey
  have ht : Names.problem? .table table = none := by simpa [Names.isTable] using htable
  rw [checkRecord, checkTable, Names.check, Names.check, hk, ht]
  rfl

theorem checkTable_eq (htable : Names.isTable table = true) : checkTable table = .ok () := by
  have ht : Names.problem? .table table = none := by simpa [Names.isTable] using htable
  rw [checkTable, Names.check, ht]
  rfl

/-- A shelf at a place where nothing has been made yet. -/
def unmade (location : String) : Shelf := ⟨location, [], 1, 0, none⟩

/-- The entries of a table, none if there is no table. -/
def entriesOf (s : Shelf) (table : String) : Entries := (s.tableEntries table).toOption.getD []

/-- The second shelf is the first one with other entries in one table. -/
structure Becomes (s : Shelf) (table : String) (entries : Entries) (s' : Shelf) : Prop where
  here : s'.tableEntries table = .ok entries
  others : ∀ t, t ≠ table → s'.tableEntries t = s.tableEntries t
  location : s'.location = s.location
  autoIncrement : s'.autoIncrement = s.autoIncrement

theorem Becomes.setTable (h : Becomes s table entries s') (replaced : Entries) :
    Becomes s table replaced (s'.setTable table replaced) := by
  refine ⟨tableEntries_setTable_self h.here replaced, fun t ht => ?_, ?_, ?_⟩
  · rw [tableEntries_setTable_of_ne ht, h.others t ht]
  · rw [setTable_location, h.location]
  · rw [setTable_autoIncrement, h.autoIncrement]

section
variable {s₁ : Shelf} {name temporary : String} {node : Node}

theorem Becomes.of_writeFile {content : ByteArray} (h : Becomes s table entries s₁)
    (hwrite : s₁.writeFile table name content = .ok s') :
    Node.fits name = true ∧ (∀ es, entries.get? name ≠ some (.directory es)) ∧
      Becomes s table (entries.insert name (.file content)) s' := by
  obtain ⟨there, hthere, hfits, hfree, rfl⟩ := writeFile_ok hwrite
  obtain rfl := Except.ok.inj (h.here.symm.trans hthere)
  exact ⟨hfits, hfree, h.setTable _⟩

/-- What was written under a temporary name takes the place of what had the new name. -/
theorem Becomes.of_renameFile (h : Becomes s table (entries.insert temporary node) s₁)
    (hne : name ≠ temporary) (hrename : s₁.renameFile table temporary name = .ok s') :
    Node.fits name = true ∧ (∀ es, entries.get? name ≠ some (.directory es)) ∧
      Becomes s table ((entries.erase temporary).insert name node) s' := by
  obtain ⟨there, moved, hthere, hfits, hmoved, hfree, rfl⟩ := renameFile_ok hrename
  obtain rfl := Except.ok.inj (h.here.symm.trans hthere)
  rw [Named.get?_insert_self] at hmoved
  obtain rfl := Option.some.inj hmoved
  rw [Named.get?_insert_of_ne _ _ hne] at hfree
  refine ⟨hfits, hfree, ?_⟩
  rw [Named.erase_insert_self]
  exact h.setTable _

theorem Becomes.of_removeFile (h : Becomes s table (entries.insert temporary node) s₁)
    (hremove : s₁.removeFile table temporary = .ok s') :
    Becomes s table (entries.erase temporary) s' := by
  obtain ⟨there, hthere, rfl⟩ := removeFile_ok hremove
  obtain rfl := Except.ok.inj (h.here.symm.trans hthere)
  rw [Named.erase_insert_self]
  exact h.setTable _

end

theorem becomes_withTable (h : s.tableEntries table ≠ .error .notDirectory) :
    ∃ s₁, s.withTable table = .ok s₁ ∧ Becomes s table (s.entriesOf table) s₁ ∧
      s₁.process = s.process ∧ s₁.written = s.written := by
  cases he : s.tableEntries table with
  | ok entries =>
    refine ⟨s, withTable_of_ok he, ⟨?_, fun _ _ => rfl, rfl, rfl⟩, rfl, rfl⟩
    rw [entriesOf, he]
    rfl
  | error cause =>
    rcases tableEntries_error he with rfl | rfl
    · obtain ⟨s₁, hmade, hempty, hothers, hrest⟩ := withTable_of_missing he
      refine ⟨s₁, hmade, ⟨?_, hothers, ?_, ?_⟩, ?_, ?_⟩
      · rw [hempty, entriesOf, he]
        rfl
      · rw [hrest]
      · rw [hrest]
      · rw [hrest]
      · rw [hrest]
    · exact absurd he h

/-- Nothing stands where the record's files and the directories above them belong. -/
structure Clear (s : Shelf) (table key : String) : Prop where
  above : s.tableEntries table ≠ .error .notDirectory
  record : ∀ es, (s.entriesOf table).get? (fileName key) ≠ some (.directory es)
  temporary : ∀ es, (s.entriesOf table).get? (s.temporaryName key) ≠ some (.directory es)

end Shelf

namespace ShelfM
open RecordShelf.Shelf
variable {s s' : Shelf} {table key : String} {r : Record} {entries : Entries}

theorem run_getThe (s : Shelf) : (getThe Shelf : ShelfM Shelf).run s = (.ok s, s) := rfl

theorem run_read {α : Type} (f : Shelf → Except Error α) (s : Shelf) :
    (ShelfM.read f).run s = (f s, s) := by
  cases h : f s with
  | ok a =>
    have hrun : (ShelfM.read f).run s = (ShelfM.read.liftExcept (f s)).run s := rfl
    rw [hrun, h]
    rfl
  | error e =>
    have hrun : (ShelfM.read f).run s = (ShelfM.read.liftExcept (f s)).run s := rfl
    rw [hrun, h]
    rfl

theorem run_step_of_ok {action : IoAction} {path : String} {f : Shelf → Except IoCause Shelf}
    (h : f s = .ok s') : (ShelfM.step action path f).run s = (.ok (), s') := by
  rw [step, run_bind_of_ok (run_getThe s)]
  simp only [h]
  rfl

theorem run_step_of_error {action : IoAction} {path : String} {f : Shelf → Except IoCause Shelf}
    {cause : IoCause} (h : f s = .error cause) :
    (ShelfM.step action path f).run s = (.error (.io action path cause), s) := by
  rw [step, run_bind_of_ok (run_getThe s)]
  simp only [h]
  rfl

theorem run_ensureTable (htable : Names.isTable table = true)
    (h : s.tableEntries table ≠ .error .notDirectory) :
    ∃ s₁, (ensureTable table).run s = (.ok (), s₁) ∧ Becomes s table (s.entriesOf table) s₁ ∧
      s₁.process = s.process ∧ s₁.written = s.written := by
  obtain ⟨s₁, hmade, hs₁⟩ := becomes_withTable h
  refine ⟨s₁, ?_, hs₁⟩
  have hcheck : (ShelfM.read fun _ => checkTable table).run s = (.ok (), s) := by
    rw [run_read, checkTable_eq htable]
  rw [ensureTable, run_bind_of_ok hcheck, run_bind_of_ok (run_getThe s)]
  exact run_step_of_ok (f := fun s => s.withTable table) hmade

theorem run_ensureTable_blocked (htable : Names.isTable table = true)
    (h : s.tableEntries table = .error .notDirectory) :
    ∃ e, (ensureTable table).run s = (.error e, s) := by
  obtain ⟨cause, hcause⟩ := withTable_of_notDirectory h
  have hcheck : (ShelfM.read fun _ => checkTable table).run s = (.ok (), s) := by
    rw [run_read, checkTable_eq htable]
  refine ⟨.io .directoryCreate (s.tablePath table) cause, ?_⟩
  rw [ensureTable, run_bind_of_ok hcheck, run_bind_of_ok (run_getThe s)]
  exact run_step_of_error (f := fun s => s.withTable table) hcause

/-! ## Runs of put -/

/-- What a run of `put` gives, when the names are valid and the table can be made. -/
inductive Stores (s : Shelf) (table key : String) (r : Record) : Except Error Unit × Shelf → Prop
  | done {s' : Shelf} (clear : s.Clear table key) (fits : Node.fits (s.temporaryName key) = true)
      (becomes : Becomes s table (((s.entriesOf table).erase (s.temporaryName key)).insert
        (fileName key) (.file (RecordFile.encode r))) s') : Stores s table key r (.ok (), s')
  | refused {e : Error} {s' : Shelf} {entries : Entries}
      (blocked : ¬(s.Clear table key ∧ Node.fits (s.temporaryName key) = true))
      (kept : entries = s.entriesOf table ∨
        entries = (s.entriesOf table).erase (s.temporaryName key))
      (becomes : Becomes s table entries s') : Stores s table key r (.error e, s')

theorem run_publish (s₃ : Shelf) (temporary : String) :
    (publish table temporary key).run s₃ =
      match s₃.renameFile table temporary (fileName key) with
      | .ok s => (.ok (), s)
      | .error cause => (.error (.io .fileWrite (s₃.path table (fileName key)) cause),
          (s₃.removeFile table temporary).toOption.getD s₃) := by
  rw [publish, run_bind_of_ok (run_getThe s₃)]
  cases s₃.renameFile table temporary (fileName key) <;> rfl

/-- A run of `put` comes to the writing of the temporary file with the table made and nothing in it
changed. -/
theorem run_put_named (hkey : Names.isKey key = true) (htable : Names.isTable table = true)
    (h : s.tableEntries table ≠ .error .notDirectory) :
    ∃ s₂, Becomes s table (s.entriesOf table) s₂ ∧ (put table key r).run s =
      (do
        step .fileWrite ((← getThe Shelf).path table (s.temporaryName key))
          (·.writeFile table (s.temporaryName key) (RecordFile.encode r))
        publish table (s.temporaryName key) key : ShelfM Unit).run s₂ := by
  have hcheck : (ShelfM.read fun _ => checkRecord table key).run s = (.ok (), s) := by
    rw [run_read, checkRecord_eq hkey htable]
  obtain ⟨s₁, hmade, hs₁, hprocess, hwritten⟩ := run_ensureTable htable h
  have hname : s₁.temporaryName key = s.temporaryName key := by
    rw [temporaryName, temporaryName, hprocess, hwritten]
  have htemporary : (nameTemporary key).run s₁ =
      (.ok (s.temporaryName key), { s₁ with written := s₁.written + 1 }) := by
    rw [← hname]
    rfl
  refine ⟨{ s₁ with written := s₁.written + 1 },
    ⟨hs₁.here, hs₁.others, hs₁.location, hs₁.autoIncrement⟩, ?_⟩
  rw [put, run_bind_of_ok hcheck, run_bind_of_ok hmade, run_bind_of_ok htemporary]

/-- Where the temporary file has been written, only a directory in the place of the record's file
stops the renaming, and then the temporary file is removed. -/
theorem publish_stores {s₃ : Shelf} (h : s.tableEntries table ≠ .error .notDirectory)
    (hfits : Node.fits (s.temporaryName key) = true)
    (htemp : ∀ es, (s.entriesOf table).get? (s.temporaryName key) ≠ some (.directory es))
    (hs₃ : Becomes s table ((s.entriesOf table).insert (s.temporaryName key)
      (.file (RecordFile.encode r))) s₃) :
    Stores s table key r ((publish table (s.temporaryName key) key).run s₃) := by
  have hne := fileName_ne_temporaryName s key key
  rw [run_publish]
  cases hrename : s₃.renameFile table (s.temporaryName key) (fileName key) with
  | ok s₄ =>
    obtain ⟨-, hrecord, hs₄⟩ := hs₃.of_renameFile hne hrename
    exact .done ⟨h, hrecord, htemp⟩ hfits hs₄
  | error cause =>
    rw [removeFile_eq hs₃.here hfits (Named.get?_insert_self _ _ _), Named.erase_insert_self]
    refine .refused ?_ (Or.inr rfl) (hs₃.setTable _)
    rintro ⟨hclear, -⟩
    rw [renameFile_eq hs₃.here (fits_fileName_of_temporaryName hfits)
      (Named.get?_insert_self _ _ _)
      (by rw [Named.get?_insert_of_ne _ _ hne]; exact hclear.record)] at hrename
    exact nomatch hrename

theorem put_stores (hkey : Names.isKey key = true) (htable : Names.isTable table = true)
    (h : s.tableEntries table ≠ .error .notDirectory) :
    Stores s table key r ((put table key r).run s) := by
  obtain ⟨s₂, hs₂, hput⟩ := run_put_named (r := r) hkey htable h
  rw [hput, run_bind_of_ok (run_getThe s₂)]
  cases hwrite : s₂.writeFile table (s.temporaryName key) (RecordFile.encode r) with
  | error cause =>
    rw [run_bind_of_error (run_step_of_error hwrite)]
    refine .refused ?_ (Or.inl rfl) hs₂
    rintro ⟨hclear, hfits⟩
    rw [writeFile_eq hs₂.here hfits hclear.temporary] at hwrite
    exact nomatch hwrite
  | ok s₃ =>
    rw [run_bind_of_ok (run_step_of_ok hwrite)]
    obtain ⟨hfits, htemp, hs₃⟩ := hs₂.of_writeFile hwrite
    exact publish_stores h hfits htemp hs₃

theorem put_blocked (hkey : Names.isKey key = true) (htable : Names.isTable table = true)
    (h : s.tableEntries table = .error .notDirectory) :
    ∃ e, (put table key r).run s = (.error e, s) := by
  have hcheck : (ShelfM.read fun _ => checkRecord table key).run s = (.ok (), s) := by
    rw [run_read, checkRecord_eq hkey htable]
  obtain ⟨e, he⟩ := run_ensureTable_blocked htable h
  exact ⟨e, by rw [put, run_bind_of_ok hcheck, run_bind_of_error he]⟩

/-- A record can be stored exactly when nothing is in the way and the longer of the two file names
fits. -/
theorem put_ok_iff (hkey : Names.isKey key = true) (htable : Names.isTable table = true) :
    (∃ s', (put table key r).run s = (.ok (), s')) ↔
      s.Clear table key ∧ Node.fits (s.temporaryName key) = true := by
  by_cases habove : s.tableEntries table = .error .notDirectory
  · obtain ⟨e, he⟩ := put_blocked (r := r) hkey htable habove
    refine ⟨?_, fun h => absurd habove h.1.above⟩
    rintro ⟨s', h⟩
    exact nomatch he.symm.trans h
  · have hstores := put_stores (r := r) hkey htable habove
    constructor
    · rintro ⟨s', h⟩
      rw [h] at hstores
      cases hstores with
      | done hclear hfits _ => exact ⟨hclear, hfits⟩
    · intro hfree
      generalize (put table key r).run s = outcome at hstores ⊢
      cases hstores with
      | done _ _ _ => exact ⟨_, rfl⟩
      | refused hblocked _ _ => exact absurd hfree hblocked

end ShelfM

/-! ## Reading after writing -/

namespace Shelf
variable {s s' : Shelf} {table key : String} {r : Record}

theorem get_of_readFile_ok {content : ByteArray} (hkey : Names.isKey key = true)
    (htable : Names.isTable table = true) (h : s.readFile table (fileName key) = .ok content) :
    s.get table key = .ok (RecordFile.decode content) := by
  rw [get, checkRecord_eq hkey htable, ok_bind, h]
  rfl

theorem get_congr {t k : String} (hread : s'.readFile t (fileName k) = s.readFile t (fileName k))
    (hlocation : s'.location = s.location) : s'.get t k = s.get t k := by
  rw [get, get, hread, path, path, tablePath, tablePath, hlocation]

theorem Becomes.readFile_of_ne {entries : Entries} (h : Becomes s table entries s') {t : String}
    (ht : t ≠ table) (name : String) : s'.readFile t name = s.readFile t name := by
  cases he : s.tableEntries t with
  | error cause =>
    rw [readFile_of_error he, readFile_of_error (by rw [h.others t ht, he])]
  | ok entries =>
    rw [readFile_of_ok he, readFile_of_ok (by rw [h.others t ht, he])]

theorem Becomes.readFile_of_get? {entries : Entries} (h : Becomes s table entries s') {name : String}
    (hget : entries.get? name = (s.entriesOf table).get? name)
    (habove : s.tableEntries table ≠ .error .notDirectory)
    (hfits : s.tableEntries table = .error .missing → Node.fits name = true) :
    s'.readFile table name = s.readFile table name := by
  rw [readFile_of_ok h.here, hget, entriesOf]
  cases he : s.tableEntries table with
  | ok entries =>
    rw [readFile_of_ok he]
    rfl
  | error cause =>
    rcases tableEntries_error he with rfl | rfl
    · rw [readFile_of_error he, hfits he]
      rfl
    · exact absurd he habove

/-- Once a table is there, a key whose file name is too long cannot be read. -/
theorem get_of_not_fits {entries : Entries} {k : String} (hkey : Names.isKey k = true)
    (htable : Names.isTable table = true) (he : s.tableEntries table = .ok entries)
    (hfits : Node.fits (fileName k) = false) :
    s.get table k = .error (.io .fileRead (s.path table (fileName k)) .nameTooLong) := by
  rw [get, checkRecord_eq hkey htable, ok_bind, readFile_of_ok he, hfits]
  rfl

theorem get_of_missing {k : String} (hkey : Names.isKey k = true)
    (htable : Names.isTable table = true) (he : s.tableEntries table = .error .missing) :
    s.get table k = .ok none := by
  rw [get, checkRecord_eq hkey htable, ok_bind, readFile_of_error he]
  rfl

theorem get_of_absent {entries : Entries} {k : String} (hkey : Names.isKey k = true)
    (htable : Names.isTable table = true) (he : s.tableEntries table = .ok entries)
    (hfits : Node.fits (fileName k) = true) (hget : entries.get? (fileName k) = none) :
    s.get table k = .ok none := by
  have hread := readFile_of_ok he (fileName k)
  rw [hfits, if_pos rfl, hget] at hread
  rw [get, checkRecord_eq hkey htable, ok_bind, hread]
  rfl

theorem get_of_not_isKey {k : String} (hkey : Names.isKey k = false) (t : String) :
    s'.get t k = s.get t k := by
  have hproblem : ∃ problem, Names.problem? .key k = some problem := by
    rw [Names.isKey, Option.isNone_eq_false_iff] at hkey
    exact Option.isSome_iff_exists.1 hkey
  obtain ⟨problem, hproblem⟩ := hproblem
  rw [get, get, checkRecord, Names.check, hproblem]
  rfl

theorem Becomes.get_of_ne {entries : Entries} (h : Becomes s table entries s') {t k : String}
    (hget : t = table → entries.get? (fileName k) = (s.entriesOf table).get? (fileName k))
    (htable : Names.isTable table = true) (habove : s.tableEntries table ≠ .error .notDirectory) :
    s'.get t k = s.get t k ↔ ¬(t = table ∧ Names.isKey k = true ∧
      Node.fits (fileName k) = false ∧ s.tableEntries table = .error .missing) := by
  constructor
  · rintro hsame ⟨rfl, hkey, hfits, hmissing⟩
    rw [get_of_not_fits hkey htable h.here hfits, get_of_missing hkey htable hmissing] at hsame
    exact absurd hsame (by simp)
  · intro hother
    by_cases ht : t = table
    · subst ht
      cases hkey : Names.isKey k with
      | false => exact get_of_not_isKey hkey t
      | true =>
        refine get_congr (h.readFile_of_get? (hget rfl) habove fun hmissing => ?_) h.location
        by_contra hfits
        exact hother ⟨rfl, hkey, Bool.eq_false_iff.2 hfits, hmissing⟩
    · exact get_congr (h.readFile_of_ne ht _) h.location

end Shelf

namespace ShelfM
open RecordShelf.Shelf
variable {s s' : Shelf} {table key : String} {r : Record}

theorem get?_stored {entries : Entries} {k : String} (hk : k ≠ key) (node : Node) :
    ((entries.erase (s.temporaryName key)).insert (fileName key) node).get? (fileName k) =
      entries.get? (fileName k) := by
  rw [Named.get?_insert_of_ne _ _ fun h => hk (fileName_injective h),
    Named.get?_erase_of_ne _ (fileName_ne_temporaryName s k key)]

/-- Storing and reading a record: a run that succeeds stores exactly the record; it succeeds exactly
when nothing is in the way and the longer of the two file names fits; and in any case every other
key reads as before, unless the file name of that key is too long and the table is new. -/
theorem put_get (hkey : Names.isKey key = true) (htable : Names.isTable table = true)
    (hr : Storable r) :
    (∀ s', (put table key r).run s = (.ok (), s') → s'.get table key = .ok (some r)) ∧
    ((∃ s', (put table key r).run s = (.ok (), s')) ↔
      s.Clear table key ∧ Node.fits (s.temporaryName key) = true) ∧
    ∀ t k, (t, k) ≠ (table, key) →
      (((put table key r).run s).2.get t k = s.get t k ↔
        ¬(t = table ∧ Names.isKey k = true ∧ Node.fits (fileName k) = false ∧
          s.tableEntries table = .error .missing)) := by
  by_cases habove : s.tableEntries table = .error .notDirectory
  · obtain ⟨e, he⟩ := put_blocked (r := r) hkey htable habove
    rw [he]
    refine ⟨fun s' h => ?_, ⟨?_, fun h => absurd habove h.1.above⟩, fun t k _ => ?_⟩
    · exact absurd (Prod.mk.inj h).1 (by simp)
    · rintro ⟨s', h⟩
      exact absurd (Prod.mk.inj h).1 (by simp)
    · simp [habove]
  · have hstores := put_stores (r := r) hkey htable habove
    cases hrun : (put table key r).run s with
    | mk result s' =>
      rw [hrun] at hstores
      cases hstores with
      | done hclear hfits hbecomes =>
        refine ⟨fun s'' h => ?_, ⟨fun _ => ⟨hclear, hfits⟩, fun _ => ⟨s', rfl⟩⟩, ?_⟩
        · obtain rfl := (Prod.mk.inj h).2
          have hread := readFile_of_ok hbecomes.here (fileName key)
          rw [fits_fileName_of_temporaryName hfits, if_pos rfl, Named.get?_insert_self] at hread
          rw [get_of_readFile_ok hkey htable hread, RecordFile.decode_encode hr]
        · intro t k hne
          refine hbecomes.get_of_ne (fun ht => ?_) htable habove
          exact get?_stored (fun hk => hne (by rw [ht, hk])) _
      | refused hblocked hkept hbecomes =>
        refine ⟨fun s'' h => absurd (Prod.mk.inj h).1 (by simp), ⟨?_, fun h => absurd h hblocked⟩,
          ?_⟩
        · rintro ⟨s'', h⟩
          exact absurd (Prod.mk.inj h).1 (by simp)
        · intro t k _
          refine hbecomes.get_of_ne (fun _ => ?_) htable habove
          rcases hkept with rfl | rfl
          · rfl
          · exact Named.get?_erase_of_ne _ (fileName_ne_temporaryName s k key)

theorem storable_note : Storable [("note", .string "kept")] :=
  ⟨⟨by decide, trivial, trivial⟩, by decide⟩

theorem put_get_note : Names.isKey "k" = true ∧ Names.isTable "t" = true ∧
    ∃ s', (put "t" "k" [("note", .string "kept")]).run (Shelf.unmade "data") = (.ok (), s') ∧
      s'.get "t" "k" = .ok (some [("note", .string "kept")]) := by
  refine ⟨by decide, by decide, ?_⟩
  obtain ⟨hread, hdone, -⟩ := @put_get (Shelf.unmade "data") "t" "k" _ (by decide) (by decide)
    storable_note
  have hclear : (Shelf.unmade "data").Clear "t" "k" :=
    ⟨by simp [Shelf.unmade, tableEntries], fun _ => Option.some_ne_none _ ∘ Eq.symm,
      fun _ => Option.some_ne_none _ ∘ Eq.symm⟩
  obtain ⟨s', hs'⟩ := hdone.2 ⟨hclear, by decide⟩
  exact ⟨s', hs', hread s' hs'⟩

/-- A key that is valid, though its record's file would have a name of 256 bytes. -/
def longKey : String := String.ofList (List.replicate 251 'a')

theorem put_longKey : Names.isKey longKey = true ∧ Names.isTable "t" = true ∧
    Storable [("note", .string "kept")] ∧
    ∀ s', (put "t" longKey [("note", .string "kept")]).run (Shelf.unmade "data") ≠ (.ok (), s') := by
  have hkey : Names.isKey longKey = true := by decide +kernel
  have hlong : Node.fits ((Shelf.unmade "data").temporaryName longKey) = false := by
    decide +kernel
  refine ⟨hkey, by decide, storable_note, fun s' h => ?_⟩
  have hstores := @put_stores (Shelf.unmade "data") "t" longKey [("note", .string "kept")] hkey
    (by decide) (by simp [Shelf.unmade, tableEntries])
  rw [h] at hstores
  cases hstores with
  | done _ hfits _ => rw [hlong] at hfits; exact absurd hfits Bool.false_ne_true

end ShelfM

end RecordShelf

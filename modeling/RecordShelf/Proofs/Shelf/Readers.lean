import RecordShelf.Proofs.Shelf.Content
import RecordShelf.Proofs.Shelf.Steps

/-!
# What readers see of a write

Readers look into record files only. They do not see a temporary file that stands beside these, and
when the file of one record has been written they find what is in it and all other records as
before. Only a key whose file name is too long is no longer missing once its table has been made.
-/

namespace RecordShelf

namespace Shelf
variable {entries : Entries} {hideCounter : Bool} {key : String}

/-! ## Listings of changed entries -/

theorem scanEntries_of_hidden {name : String} (h : recordKey? hideCounter name = none) (node : Node)
    (entries : Entries) :
    scanEntries hideCounter ((name, node) :: entries) = scanEntries hideCounter entries := by
  rw [scanEntries_first, h]

/-- A listing does not see that a file is written that is no record's. -/
theorem scanEntries_insert_of_hidden {name : String} (h : recordKey? hideCounter name = none)
    (node : Node) (entries : Entries) :
    scanEntries hideCounter (entries.insert name node) = scanEntries hideCounter entries := by
  induction entries with
  | nil => exact scanEntries_of_hidden h node []
  | cons entry entries ih =>
    obtain ⟨k, old⟩ := entry
    by_cases hk : k = name
    · subst hk
      simp only [Named.insert, if_true]
      rw [scanEntries_of_hidden h, scanEntries_of_hidden h]
    · simp only [Named.insert, hk, if_false]
      rw [scanEntries_cons, ih, ← scanEntries_cons]

theorem scanEntries_erase_of_hidden {name : String} (h : recordKey? hideCounter name = none)
    (entries : Entries) :
    scanEntries hideCounter (entries.erase name) = scanEntries hideCounter entries := by
  induction entries with
  | nil => rfl
  | cons entry entries ih =>
    obtain ⟨k, old⟩ := entry
    by_cases hk : k = name
    · subst hk
      simp only [Named.erase, if_true]
      rw [scanEntries_of_hidden h]
    · simp only [Named.erase, hk, if_false]
      rw [scanEntries_cons, ih, ← scanEntries_cons]

/-- A listing that shows what is stored under one key now, and all other records as another listing
does. -/
structure ShowsNow (key : String) (stored : Option Record) (rows rows' : List (String × Record)) :
    Prop where
  own : rows'.filter (·.1 = key) = stored.toList.map fun r => (key, r)
  others : rows'.filter (·.1 ≠ key) = rows.filter (·.1 ≠ key)

/-- Without a file for a key a listing shows no record of it. -/
theorem filter_of_not_mem_names {rows : List (String × Record)}
    (h : scanEntries hideCounter entries = .ok rows) (hname : fileName key ∉ entries.names) :
    rows.filter (·.1 = key) = [] ∧ rows.filter (·.1 ≠ key) = rows := by
  have hother : ∀ row ∈ rows, row.1 ≠ key := by
    rintro row hrow rfl
    obtain ⟨-, content, hmem, -⟩ := shows_of_scanEntries h row hrow
    exact hname (List.mem_map.2 ⟨_, hmem, rfl⟩)
  constructor
  · rw [List.filter_eq_nil_iff]
    exact fun row hrow heq => hother row hrow (of_decide_eq_true heq)
  · rw [List.filter_eq_self]
    exact fun row hrow => decide_eq_true (hother row hrow)

/-- How a listing goes after a record has been stored: it fails as another one does, or it shows what
is stored now. -/
inductive ListsNow (key : String) (stored : Option Record) :
    Except String (List (String × Record)) → Except String (List (String × Record)) → Prop
  | failed (name : String) : ListsNow key stored (.error name) (.error name)
  | listed {rows rows' : List (String × Record)} (shows : ShowsNow key stored rows rows') :
      ListsNow key stored (.ok rows) (.ok rows')

/-- What another file shows stands before both listings. -/
theorem ListsNow.after {stored : Option Record}
    {rest rest' : Except String (List (String × Record))} (h : ListsNow key stored rest rest')
    {entry : String × Node} (hother : fileName key ≠ entry.1) :
    ListsNow key stored
      (do return (← scanEntries hideCounter [entry]) ++ (← rest))
      (do return (← scanEntries hideCounter [entry]) ++ (← rest')) := by
  cases hfirst : scanEntries hideCounter [entry] with
  | error name => exact .failed name
  | ok first =>
    have hnew : fileName key ∉ Named.names [entry] := fun hmem =>
      hother (List.mem_singleton.1 hmem)
    obtain ⟨hnone, -⟩ := filter_of_not_mem_names hfirst hnew
    cases h with
    | failed name => exact .failed name
    | listed shows =>
      refine .listed ⟨?_, ?_⟩
      · rw [List.filter_append, hnone, shows.own, List.nil_append]
      · rw [List.filter_append, List.filter_append, shows.others]

variable {s s' : Shelf} {table : String}

theorem readFile_congr {t : String} (h : s'.tableEntries t = s.tableEntries t) (name : String) :
    s'.readFile t name = s.readFile t name := by
  rw [readFile, readFile, h]

theorem scan_congr {t : String} (h : s'.tableEntries t = s.tableEntries t)
    (hlocation : s'.location = s.location) (hauto : s'.autoIncrement = s.autoIncrement) :
    s'.scan t = s.scan t := by
  have hpath : s'.path t = s.path t := by
    funext name
    rw [path, path, tablePath, tablePath, hlocation]
  have hnumbered : s'.isAutoIncrement t = s.isAutoIncrement t := by
    rw [isAutoIncrement, isAutoIncrement, hauto]
  rw [scan, scan, h, hpath, hnumbered, tablePath, tablePath, hlocation]

/-- A listing of a table, whether it has been made or not. -/
theorem scan_of_reachable (htable : Names.isTable table = true)
    (h : s.tableEntries table ≠ .error .notDirectory) :
    s.scan table = (scanEntries (s.isAutoIncrement table) (s.entriesOf table)).mapError fun name =>
      .io .fileRead (s.path table name) .isDirectory := by
  rw [scan, checkTable_eq htable, ok_bind, entriesOf]
  cases he : s.tableEntries table with
  | ok entries => rfl
  | error cause =>
    rcases tableEntries_error he with rfl | rfl
    · rfl
    · exact absurd he h

/-- A key whose file name is too long, in a table that has been made meanwhile. -/
def Overlong (s s' : Shelf) (table t k : String) : Prop :=
  t = table ∧ Names.isKey k = true ∧ Node.fits (fileName k) = false ∧
    s.tableEntries table = .error .missing ∧ s'.tableEntries table ≠ .error .missing

/-- Readers find what they found before. -/
structure ReadsBefore (s s' : Shelf) (table : String) : Prop where
  get : ∀ t k, s'.get t k = s.get t k ↔ ¬Overlong s s' table t k
  scan : ∀ t, s'.scan t = s.scan t
  list : ∀ t, s'.list t = s.list t

/-- The entries of a table, with or without a temporary file among them. -/
inductive Beside (temporary : String) (before : Entries) : Entries → Prop
  | unwritten : Beside temporary before before
  | written (content : ByteArray) :
      Beside temporary before (before.insert temporary (.file content))
  | removed : Beside temporary before (before.erase temporary)

theorem Beside.get? {temporary name : String} {before after : Entries}
    (h : Beside temporary before after) (hne : name ≠ temporary) :
    after.get? name = before.get? name := by
  cases h with
  | unwritten => rfl
  | written content => exact Named.get?_insert_of_ne _ _ hne
  | removed => exact Named.get?_erase_of_ne _ hne

theorem Beside.scanEntries {temporary : String} {before after : Entries}
    (h : Beside temporary before after) (hhidden : recordKey? hideCounter temporary = none) :
    Shelf.scanEntries hideCounter after = Shelf.scanEntries hideCounter before := by
  cases h with
  | unwritten => rfl
  | written content => exact scanEntries_insert_of_hidden hhidden _ _
  | removed => exact scanEntries_erase_of_hidden hhidden _

/-- No listing takes a temporary file for a record's. -/
theorem recordKey?_temporaryName (hideCounter : Bool) (s : Shelf) (key : String) :
    recordKey? hideCounter (s.temporaryName key) = none := by
  cases hfound : recordKey? hideCounter (s.temporaryName key) with
  | none => rfl
  | some k => exact absurd (recordKey?_eq_some hfound).1 (fileName_ne_temporaryName s k key)

theorem Becomes.not_missing (h : Becomes s table entries s') :
    s'.tableEntries table ≠ .error .missing := by
  rw [h.here]
  exact fun heq => nomatch heq

theorem Becomes.get_iff (h : Becomes s table entries s') {t k : String}
    (hget : t = table → entries.get? (fileName k) = (s.entriesOf table).get? (fileName k))
    (htable : Names.isTable table = true) (habove : s.tableEntries table ≠ .error .notDirectory) :
    s'.get t k = s.get t k ↔ ¬Overlong s s' table t k := by
  rw [h.get_of_ne hget htable habove, Overlong]
  have hmade := h.not_missing
  tauto

theorem Becomes.scan_of_ne (h : Becomes s table entries s') {t : String} (ht : t ≠ table) :
    s'.scan t = s.scan t ∧ s'.list t = s.list t := by
  have hscan := scan_congr (h.others t ht) h.location h.autoIncrement
  exact ⟨hscan, by rw [list, list, hscan]⟩

/-- A listing of the table that has been changed, told by the entries it has now. -/
theorem Becomes.scan_eq (h : Becomes s table entries s') (htable : Names.isTable table = true) :
    s'.scan table = (scanEntries (s.isAutoIncrement table) entries).mapError fun name =>
      .io .fileRead (s.path table name) .isDirectory := by
  have habove : s'.tableEntries table ≠ .error .notDirectory := by
    rw [h.here]
    exact fun heq => nomatch heq
  rw [scan_of_reachable htable habove, h.entriesOf, isAutoIncrement, isAutoIncrement,
    h.autoIncrement]
  simp only [path, tablePath, h.location]

/-- No reader sees the temporary file. -/
theorem Becomes.reads (h : Becomes s table entries s') (htable : Names.isTable table = true)
    (habove : s.tableEntries table ≠ .error .notDirectory)
    (hbeside : Beside (s.temporaryName key) (s.entriesOf table) entries) :
    ReadsBefore s s' table := by
  have hscan : ∀ t, s'.scan t = s.scan t := by
    intro t
    by_cases ht : t = table
    · subst ht
      rw [h.scan_eq htable, hbeside.scanEntries (recordKey?_temporaryName _ s key),
        scan_of_reachable htable habove]
    · exact (h.scan_of_ne ht).1
  refine ⟨fun t k => ?_, hscan, fun t => by rw [list, list, hscan]⟩
  exact h.get_iff (fun _ => hbeside.get? (fileName_ne_temporaryName s k key)) htable habove

end Shelf

end RecordShelf

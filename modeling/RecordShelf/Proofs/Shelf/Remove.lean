import RecordShelf.Proofs.Shelf.Put
import RecordShelf.Proofs.Shelf.Scan

/-!
# Taking records away

The entries of a directory have distinct names, none of them too long. On such entries the removal
of a record takes its file out of the table and changes nothing else.
-/

namespace RecordShelf

/-- The entries of a directory have distinct names that are not too long. -/
structure Sound (entries : Entries) : Prop where
  distinct : entries.names.Nodup
  fits : ∀ name ∈ entries.names, Node.fits name = true

namespace Sound
variable {entries : Entries}

theorem nil : Sound [] := ⟨List.nodup_nil, fun _ h => absurd h List.not_mem_nil⟩

theorem insert (h : Sound entries) {name : String} (hname : Node.fits name = true) (node : Node) :
    Sound (entries.insert name node) := by
  refine ⟨Named.nodup_names_insert h.distinct name node, fun other hother => ?_⟩
  rw [Named.names_insert] at hother
  split_ifs at hother with hmem
  · exact h.fits other hother
  · rcases List.mem_append.1 hother with hother | hother
    · exact h.fits other hother
    · rwa [List.mem_singleton.1 hother]

theorem filter (h : Sound entries) (p : String × Node → Bool) : Sound (entries.filter p) :=
  have hsub : (Named.names (entries.filter p)).Sublist entries.names := List.filter_sublist.map _
  ⟨hsub.nodup h.distinct, fun name hname => h.fits name (hsub.subset hname)⟩

theorem erase (h : Sound entries) (name : String) : Sound (entries.erase name) := by
  rw [Named.erase_eq_filter h.distinct]
  exact h.filter _

end Sound

namespace Shelf
variable {s s' : Shelf} {table key : String} {entries : Entries}

/-- A shelf as a directory tree holds it. -/
def Wellformed (s : Shelf) : Prop := ∀ t entries, s.tableEntries t = .ok entries → Sound entries

theorem Becomes.wellformed (h : Becomes s table entries s') (hs : s.Wellformed)
    (hentries : Sound entries) : s'.Wellformed := by
  intro t there ht
  by_cases hne : t = table
  · subst hne
    rw [h.here] at ht
    cases ht
    exact hentries
  · rw [h.others t hne] at ht
    exact hs t there ht

theorem wellformed_of_root_none (h : s.root = none) : s.Wellformed :=
  fun _ _ hentries => absurd hentries (by simp [tableEntries, h])

theorem Wellformed.entriesOf (hs : s.Wellformed) (table : String) : Sound (s.entriesOf table) := by
  unfold Shelf.entriesOf
  cases h : s.tableEntries table with
  | error => exact Sound.nil
  | ok entries => exact hs table entries h

/-! ## What a listing has found -/

section
variable {rows : List (String × Record)}

theorem isTable_of_checkTable (h : checkTable table = .ok ()) : Names.isTable table = true := by
  unfold checkTable Names.check at h
  unfold Names.isTable
  cases hproblem : Names.problem? .table table with
  | none => rfl
  | some problem => simp [hproblem, throw_eq_error, Except.mapError] at h

/-- What a listing that succeeds has found. -/
theorem scan_ok (h : s.scan table = .ok rows) : Names.isTable table = true ∧
    (s.tableEntries table = .error .missing ∧ rows = [] ∨
      ∃ entries, s.tableEntries table = .ok entries ∧
        scanEntries (s.isAutoIncrement table) entries = .ok rows) := by
  rw [scan] at h
  cases hcheck : checkTable table with
  | error e =>
    rw [hcheck, error_bind] at h
    exact absurd h (by simp)
  | ok _ =>
    rw [hcheck, ok_bind] at h
    refine ⟨isTable_of_checkTable hcheck, ?_⟩
    cases he : s.tableEntries table with
    | error cause =>
      rw [he] at h
      cases cause with
      | missing => exact Or.inl ⟨rfl, (Except.ok.inj h).symm⟩
      | _ => exact absurd h (by simp [throw_eq_error])
    | ok entries =>
      rw [he] at h
      refine Or.inr ⟨entries, rfl, ?_⟩
      cases hscan : scanEntries (s.isAutoIncrement table) entries with
      | error name => simp [hscan, Except.mapError] at h
      | ok found =>
        simp only [hscan, Except.mapError] at h
        rw [Except.ok.inj h]

/-- What a listing that succeeds has found in a table that is there. -/
theorem scan_there (h : s.scan table = .ok rows) (he : s.tableEntries table = .ok entries) :
    Names.isTable table = true ∧ scanEntries (s.isAutoIncrement table) entries = .ok rows := by
  obtain ⟨htable, ⟨hmissing, -⟩ | ⟨there, hthere, hrows⟩⟩ := scan_ok h
  · cases he.symm.trans hmissing
  · obtain rfl := Except.ok.inj (he.symm.trans hthere)
    exact ⟨htable, hrows⟩

theorem scan_eq (htable : Names.isTable table = true) (he : s.tableEntries table = .ok entries)
    (h : scanEntries (s.isAutoIncrement table) entries = .ok rows) : s.scan table = .ok rows := by
  rw [scan, checkTable_eq htable, ok_bind, he]
  simp only [h, Except.mapError]

/-- No directory stands where a listing of the table looks for the file of a record. -/
def Unobstructed (s : Shelf) (table : String) : Prop :=
  ∀ name es, (name, Node.directory es) ∈ s.entriesOf table →
    recordKey? (s.isAutoIncrement table) name = none

/-- A table that is there can be listed unless a directory is in the way. -/
theorem scan_ok_iff (htable : Names.isTable table = true) (he : s.tableEntries table = .ok entries) :
    (∃ rows, s.scan table = .ok rows) ↔ s.Unobstructed table := by
  have hentries : s.entriesOf table = entries := by
    rw [entriesOf, he]
    rfl
  rw [Unobstructed, hentries, ← scanEntries_ok_iff]
  constructor
  · rintro ⟨rows, hscan⟩
    exact ⟨rows, (scan_there hscan he).2⟩
  · rintro ⟨rows, hrows⟩
    exact ⟨rows, scan_eq htable he hrows⟩

theorem ne_counterKey_of_scan (hauto : s.isAutoIncrement table = true)
    (h : s.scan table = .ok rows) : ∀ row ∈ rows, row.1 ≠ counterKey := by
  obtain ⟨-, ⟨-, rfl⟩ | ⟨entries, -, hentries⟩⟩ := scan_ok h
  · exact fun row hrow => absurd hrow List.not_mem_nil
  · rw [hauto] at hentries
    exact ne_counterKey_of_scanEntries hentries

theorem get_of_shows (htable : Names.isTable table = true) (he : s.tableEntries table = .ok entries)
    (hsound : Sound entries) {row : String × Record} (h : Shows entries row) :
    s.get table row.1 = .ok (some row.2) := by
  have hthere := h.mem_names
  obtain ⟨hkey, content, hmem, hdecode⟩ := h
  have hread : s.readFile table (fileName row.1) = .ok content := by
    rw [readFile_of_ok he, hsound.fits _ hthere, Named.get?_of_mem hsound.distinct hmem]
    rfl
  rw [get_of_readFile_ok hkey htable hread, hdecode]

end

/-! ## Shelves without some files -/

/-- The shelf without some files of a table. -/
def without (s : Shelf) (table : String) (names : List String) : Shelf :=
  match s.tableEntries table with
  | .ok entries => s.setTable table (entries.filter fun entry => entry.1 ∉ names)
  | .error _ => s

theorem without_nil (s : Shelf) (table : String) : s.without table [] = s := by
  unfold without
  cases h : s.tableEntries table with
  | error => rfl
  | ok entries =>
    simp only [List.not_mem_nil, not_false_eq_true, decide_true, List.filter_true]
    exact setTable_self h

theorem without_cons (h : s.tableEntries table = .ok entries) (hdistinct : entries.names.Nodup)
    (name : String) (names : List String) :
    (s.setTable table (entries.erase name)).without table names =
      s.without table (name :: names) := by
  have hfilter : ((entries.erase name).filter fun entry => entry.1 ∉ names) =
      entries.filter fun entry => entry.1 ∉ name :: names := by
    rw [Named.erase_eq_filter hdistinct, List.filter_filter]
    apply List.filter_congr
    intro entry _
    rw [← Bool.decide_and, decide_eq_decide, List.mem_cons, not_or, and_comm]
  simp only [without, tableEntries_setTable_self h, h]
  rw [setTable_setTable h, hfilter]

theorem becomes_without (h : s.tableEntries table = .ok entries) (names : List String) :
    Becomes s table (entries.filter fun entry => entry.1 ∉ names) (s.without table names) := by
  simp only [without, h]
  exact Becomes.setTable ⟨h, fun _ _ => rfl, rfl, rfl⟩ _

theorem Wellformed.without (hs : s.Wellformed) (table : String) (names : List String) :
    (s.without table names).Wellformed := by
  cases he : s.tableEntries table with
  | error cause =>
    rw [Shelf.without, he]
    exact hs
  | ok entries => exact (becomes_without he names).wellformed hs ((hs table entries he).filter _)

theorem readFile_without (s : Shelf) (table : String) (names : List String) {t name : String}
    (h : ¬(t = table ∧ name ∈ names)) :
    (s.without table names).readFile t name = s.readFile t name := by
  cases he : s.tableEntries table with
  | error cause => rw [without, he]
  | ok entries =>
    have hbecomes := becomes_without he names
    by_cases ht : t = table
    · subst ht
      have hkept : decide (name ∉ names) = true := decide_eq_true fun hmem => h ⟨rfl, hmem⟩
      have hget := Named.get?_filter entries (p := fun name => decide (name ∉ names)) hkept
      rw [readFile_of_ok hbecomes.here, readFile_of_ok he, hget]
    · exact hbecomes.readFile_of_ne ht name

theorem scan_without {rows : List (String × Record)} (h : s.scan table = .ok rows)
    (names : List String) :
    (s.without table names).scan table = .ok (rows.filter fun row => fileName row.1 ∉ names) := by
  obtain ⟨htable, ⟨he, rfl⟩ | ⟨entries, he, hscan⟩⟩ := scan_ok h
  · rw [without, he, List.filter_nil]
    exact h
  · have hbecomes := becomes_without he names
    refine scan_eq htable hbecomes.here ?_
    rw [isAutoIncrement, hbecomes.autoIncrement]
    exact scanEntries_filter hscan fun name => decide (name ∉ names)

theorem get_without (hs : s.Wellformed) (htable : Names.isTable table = true)
    (he : s.tableEntries table = .ok entries) {row : String × Record} (h : Shows entries row)
    {names : List String} (hmem : fileName row.1 ∈ names) :
    (s.without table names).get table row.1 = .ok none := by
  have hgone : Named.get? (entries.filter fun entry => entry.1 ∉ names) (fileName row.1) = none := by
    rw [Named.get?_eq_none_iff, Named.names, List.mem_map]
    rintro ⟨entry, hentry, hname⟩
    have hkept := of_decide_eq_true (List.mem_filter.1 hentry).2
    rw [hname] at hkept
    exact hkept hmem
  exact get_of_absent h.1 htable (becomes_without he names).here
    ((hs table entries he).fits _ h.mem_names) hgone

/-! ## Runs of remove -/

theorem run_remove {content : ByteArray} (hkey : Names.isKey key = true)
    (htable : Names.isTable table = true) (h : s.tableEntries table = .ok entries)
    (hsound : Sound entries) (hfile : entries.get? (fileName key) = some (.file content)) :
    (ShelfM.remove table key).run s =
      (.ok true, s.setTable table (entries.erase (fileName key))) := by
  have hcheck : (ShelfM.read fun _ => checkRecord table key).run s = (.ok (), s) := by
    rw [ShelfM.run_read, checkRecord_eq hkey htable]
  have hfits : Node.fits (fileName key) = true := by
    apply hsound.fits
    by_contra hmem
    rw [Named.get?_eq_none_iff.2 hmem] at hfile
    exact absurd hfile (by simp)
  rw [ShelfM.remove, run_bind_of_ok hcheck, run_bind_of_ok (ShelfM.run_getThe s),
    removeFile_eq h hfits hfile]
  rfl

end Shelf

end RecordShelf

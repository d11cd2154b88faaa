import RecordShelf.Proofs.Shelf.Remove
import RecordShelf.Proofs.Shelf.Rewrite

/-!
# The same entries in another order

A directory gives its entries in any order. In another order a listing has the same records, a file
has the same content, and taking files away or writing records over leaves the same entries, as far as
no temporary file has used up one that was left over.
-/

namespace RecordShelf

/-! ## Entries -/

section
variable {entries there : Entries} {hideCounter : Bool}

theorem Sound.perm (h : Sound entries) (hperm : entries.Perm there) : Sound there :=
  have hnames : entries.names.Perm (Named.names there) := hperm.map _
  ⟨hnames.nodup h.distinct, fun name hname => h.fits name (hnames.mem_iff.2 hname)⟩

theorem Named.get?_perm {α : Type} {r r' : Named α} (h : r.names.Nodup) (hperm : r.Perm r')
    (name : String) : r.get? name = r'.get? name := by
  have hnames : r.names.Perm r'.names := hperm.map _
  cases hvalue : r.get? name with
  | none =>
    rw [get?_eq_none_iff, hnames.mem_iff] at hvalue
    exact (get?_eq_none_iff.2 hvalue).symm
  | some value =>
    have hmem := hperm.mem_iff.1 (mem_of_get? hvalue)
    exact (get?_of_mem (hnames.nodup h) hmem).symm

namespace Shelf

/-- The record that a listing shows for an entry. -/
def shown? (hideCounter : Bool) (entry : String × Node) : Option (String × Record) :=
  match recordKey? hideCounter entry.1, entry.2 with
  | some key, .file content => (RecordFile.decode content).map fun r => (key, r)
  | _, _ => none

/-- The equation of its own: those that Lean makes for each branch are slow. -/
theorem shown?_entry (name : String) (node : Node) : shown? hideCounter (name, node) =
    match recordKey? hideCounter name, node with
    | some key, .file content => (RecordFile.decode content).map fun r => (key, r)
    | _, _ => none := by
  delta shown?
  exact rfl

theorem scanEntries_eq_filterMap {rows : List (String × Record)}
    (h : scanEntries hideCounter entries = .ok rows) :
    rows = entries.filterMap (shown? hideCounter) := by
  induction entries generalizing rows with
  | nil => exact (Except.ok.inj h).symm
  | cons entry entries ih =>
    obtain ⟨name, node⟩ := entry
    rw [scanEntries_first] at h
    rw [List.filterMap_cons, shown?_entry]
    split at h
    · rename_i hkey
      rw [hkey]
      exact ih h
    · exact nomatch h
    · rename_i key content hkey
      rw [hkey]
      dsimp only
      split at h
      · rename_i r hdecode
        cases hrest : scanEntries hideCounter entries with
        | error e => exact absurd h (by simp [hrest, Except.map])
        | ok rest =>
          rw [hrest] at h
          obtain rfl := Except.ok.inj h
          rw [hdecode, ih hrest]
          rfl
      · rename_i hdecode
        rw [hdecode]
        exact ih h

theorem scanEntries_perm {rows : List (String × Record)} (hperm : entries.Perm there)
    (h : scanEntries hideCounter entries = .ok rows) :
    ∃ rows', scanEntries hideCounter there = .ok rows' ∧ rows.Perm rows' := by
  have hlisted : ∃ rows', scanEntries hideCounter there = .ok rows' := by
    rw [scanEntries_ok_iff]
    intro name es hmem
    exact scanEntries_ok_iff.1 ⟨rows, h⟩ name es (hperm.mem_iff.2 hmem)
  obtain ⟨rows', hrows'⟩ := hlisted
  refine ⟨rows', hrows', ?_⟩
  rw [scanEntries_eq_filterMap h, scanEntries_eq_filterMap hrows']
  exact hperm.filterMap _

end Shelf

end

/-! ## Shelves -/

namespace Shelf
variable {s s' : Shelf} {table : String} {entries there : Entries}

/-- The table is there, and the shelves differ at most in the order of its entries. -/
def Relists (table : String) (s s' : Shelf) : Prop :=
  ∃ entries there, s.tableEntries table = .ok entries ∧ entries.Perm there ∧
    s' = s.setTable table there

namespace Relists

theorem refl (he : s.tableEntries table = .ok entries) : Relists table s s :=
  ⟨entries, entries, he, .refl _, (setTable_self he).symm⟩

theorem symm (h : Relists table s s') : Relists table s' s := by
  obtain ⟨entries, there, he, hperm, rfl⟩ := h
  refine ⟨there, entries, tableEntries_setTable_self he there, hperm.symm, ?_⟩
  rw [setTable_setTable he, setTable_self he]

theorem wellformed (h : Relists table s s') (hs : s.Wellformed) : s'.Wellformed := by
  obtain ⟨entries, there, he, hperm, rfl⟩ := h
  have hbecomes : Becomes s table there (s.setTable table there) :=
    Becomes.setTable ⟨he, fun _ _ => rfl, rfl, rfl⟩ there
  exact hbecomes.wellformed hs ((hs table entries he).perm hperm)

theorem scan_ok (h : Relists table s s') {rows : List (String × Record)}
    (hscan : s.scan table = .ok rows) : ∃ rows', s'.scan table = .ok rows' ∧ rows.Perm rows' := by
  obtain ⟨entries, there, he, hperm, rfl⟩ := h
  obtain ⟨htable, hrows⟩ := scan_there hscan he
  obtain ⟨rows', hrows', hsame⟩ := scanEntries_perm hperm hrows
  refine ⟨rows', scan_eq htable (tableEntries_setTable_self he there) ?_, hsame⟩
  rw [isAutoIncrement, setTable_autoIncrement]
  exact hrows'

theorem scan_error (h : Relists table s s') {e : Error} (hscan : s.scan table = .error e) :
    ∃ e', s'.scan table = .error e' := by
  cases hscan' : s'.scan table with
  | error e' => exact ⟨e', rfl⟩
  | ok rows' =>
    obtain ⟨rows, hrows, -⟩ := h.symm.scan_ok hscan'
    exact nomatch hscan.symm.trans hrows

end Relists

/-- Shelves with the same entries but in one table differ as these do. -/
theorem relists_setTable_iff (he : s.tableEntries table = .ok entries) {here : Entries} :
    Relists table (s.setTable table here) (s.setTable table there) ↔ here.Perm there := by
  constructor
  · rintro ⟨first, second, hfirst, hperm, hsecond⟩
    obtain rfl := Except.ok.inj ((tableEntries_setTable_self he here).symm.trans hfirst)
    rw [setTable_setTable he] at hsecond
    have hsame := congrArg (·.tableEntries table) hsecond
    rw [tableEntries_setTable_self he, tableEntries_setTable_self he] at hsame
    obtain rfl := Except.ok.inj hsame
    exact hperm
  · intro hperm
    exact ⟨here, there, tableEntries_setTable_self he here, hperm, (setTable_setTable he _ _).symm⟩

/-! ## Changed tables -/

/-- The same files are taken away. -/
theorem Relists.without (h : Relists table s s') {names names' : List String}
    (hnames : names.Perm names') : Relists table (s.without table names) (s'.without table names') := by
  obtain ⟨entries, there, he, hperm, rfl⟩ := h
  have hthere := tableEntries_setTable_self he there
  simp only [Shelf.without, he, hthere]
  rw [setTable_setTable he, relists_setTable_iff he]
  simp only [hnames.mem_iff]
  exact hperm.filter _

/-- Records with files of their own are found by these in any order. -/
theorem find?_perm {rows rows' : List (String × Record)} (hperm : rows.Perm rows')
    (hdistinct : (rows.map fun row => fileName row.1).Nodup) (name : String) :
    (rows.find? fun row => fileName row.1 = name) = rows'.find? fun row => fileName row.1 = name := by
  cases hfound : rows.find? fun row => fileName row.1 = name with
  | none =>
    symm
    rw [List.find?_eq_none] at hfound ⊢
    exact fun row hrow => hfound row (hperm.mem_iff.2 hrow)
  | some row =>
    cases hfound' : rows'.find? fun row => fileName row.1 = name with
    | none =>
      have hmem := hperm.mem_iff.1 (List.mem_of_find?_eq_some hfound)
      exact absurd (List.find?_some hfound) (List.find?_eq_none.1 hfound' row hmem)
    | some other =>
      have hname := List.find?_some hfound
      have hother := List.find?_some hfound'
      rw [decide_eq_true_eq] at hname hother
      rw [List.inj_on_of_nodup_map hdistinct (List.mem_of_find?_eq_some hfound)
        (hperm.mem_iff.2 (List.mem_of_find?_eq_some hfound')) (hname.trans hother.symm)]

/-- Writing the same records over leaves the same entries exactly when the same leftover files have
the name of a temporary file. -/
theorem rewritten_perm_iff {f : Record → Record} {rows rows' : List (String × Record)}
    (hentries : entries.Perm there) (hrows : rows.Perm rows')
    (hdistinct : (rows.map fun row => fileName row.1).Nodup) :
    (s.rewritten f rows entries).Perm (s.rewritten f rows' there) ↔
      ∀ name ∈ entries.names,
        name ∈ s.temporaryNames (rows.map (·.1)) ↔ name ∈ s.temporaryNames (rows'.map (·.1)) := by
  constructor
  · intro hperm name hname
    have hnames : (s.rewritten f rows entries).names.Perm (s.rewritten f rows' there).names :=
      hperm.map _
    rw [names_rewritten, names_rewritten] at hnames
    have hthere : name ∈ Named.names there := (hentries.map Prod.fst).mem_iff.1 hname
    have hiff := hnames.mem_iff (a := name)
    rw [List.mem_filter, List.mem_filter, and_iff_right hname, and_iff_right hthere,
      decide_eq_true_eq, decide_eq_true_eq] at hiff
    exact not_iff_not.1 hiff
  · intro hsame
    have hrevised : revised f rows = revised f rows' := by
      funext entry
      rw [revised, revised, find?_perm hrows hdistinct]
    have hkept : (entries.filter fun entry => entry.1 ∉ s.temporaryNames (rows.map (·.1))) =
        entries.filter fun entry => entry.1 ∉ s.temporaryNames (rows'.map (·.1)) := by
      apply List.filter_congr
      intro entry hentry
      rw [decide_eq_decide, hsame entry.1 (List.mem_map_of_mem hentry)]
    rw [rewritten, rewritten, hrevised, hkept]
    exact (hentries.filter _).map _

/-- What can be written does not depend on the order of the entries. -/
theorem writable_perm (hsound : Sound entries) (hperm : entries.Perm there) (s : Shelf)
    (rows : List (String × Record)) :
    (s.setTable table there).writable there rows = s.writable entries rows :=
  writable_congr (fun name => by rw [Named.get?_perm hsound.distinct hperm name]) s there rows

end Shelf

end RecordShelf

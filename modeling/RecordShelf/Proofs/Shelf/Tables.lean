import RecordShelf.Proofs.Named
import RecordShelf.Proofs.Run
import RecordShelf.Shelf.Basic

/-!
# Tables of a shelf

What the single steps of writing do to the entries of the table they work in, and that they leave
every other table as it is.
-/

namespace RecordShelf

namespace Shelf
variable {s s' : Shelf} {table : String} {entries : Entries}

theorem tableEntries_error {cause : IoCause} (h : s.tableEntries table = .error cause) :
    cause = .missing ∨ cause = .notDirectory := by
  unfold tableEntries at h
  split at h
  · exact Or.inl (Except.error.inj h).symm
  · exact Or.inr (Except.error.inj h).symm
  · split at h
    · exact Or.inl (Except.error.inj h).symm
    · exact Or.inr (Except.error.inj h).symm
    · exact absurd h (by simp)

/-- A table with entries stands in the data directory. -/
theorem tableEntries_eq_ok_iff : s.tableEntries table = .ok entries ↔
    ∃ tables, s.root = some (.directory tables) ∧
      Named.get? tables table = some (.directory entries) := by
  constructor
  · intro h
    unfold tableEntries at h
    split at h
    · exact absurd h (by simp)
    · exact absurd h (by simp)
    · rename_i tables hroot
      split at h
      · exact absurd h (by simp)
      · exact absurd h (by simp)
      · rename_i there hget
        cases h
        exact ⟨tables, hroot, hget⟩
  · rintro ⟨tables, hroot, hget⟩
    simp only [tableEntries, hroot, hget]

theorem setTable_eq {tables : List (String × Node)} (hroot : s.root = some (.directory tables))
    (replaced : Entries) : s.setTable table replaced =
      { s with root := some (.directory (Named.insert tables table (.directory replaced))) } := by
  simp only [setTable, hroot]

theorem setTable_location (s : Shelf) (table : String) (replaced : Entries) :
    (s.setTable table replaced).location = s.location := by
  unfold setTable
  split <;> rfl

theorem setTable_autoIncrement (s : Shelf) (table : String) (replaced : Entries) :
    (s.setTable table replaced).autoIncrement = s.autoIncrement := by
  unfold setTable
  split <;> rfl

theorem tableEntries_setTable_self (h : s.tableEntries table = .ok entries) (replaced : Entries) :
    (s.setTable table replaced).tableEntries table = .ok replaced := by
  obtain ⟨tables, hroot, -⟩ := tableEntries_eq_ok_iff.1 h
  rw [setTable_eq hroot]
  exact tableEntries_eq_ok_iff.2 ⟨_, rfl, Named.get?_insert_self tables table _⟩

theorem setTable_setTable (h : s.tableEntries table = .ok entries) (first second : Entries) :
    (s.setTable table first).setTable table second = s.setTable table second := by
  obtain ⟨tables, hroot, -⟩ := tableEntries_eq_ok_iff.1 h
  rw [setTable_eq hroot, setTable_eq hroot, setTable_eq rfl, Named.insert_insert_self]

theorem setTable_self (h : s.tableEntries table = .ok entries) : s.setTable table entries = s := by
  obtain ⟨tables, hroot, hget⟩ := tableEntries_eq_ok_iff.1 h
  rw [setTable_eq hroot, Named.insert_eq_self hget, ← hroot]

theorem tableEntries_setTable_of_ne {other : String} (h : other ≠ table) (replaced : Entries) :
    (s.setTable table replaced).tableEntries other = s.tableEntries other := by
  unfold setTable
  split
  · rename_i tables hroot
    simp only [tableEntries, hroot, Named.get?_insert_of_ne tables _ h]
  · rfl

/-! ## Making a table -/

theorem withTable_of_ok (h : s.tableEntries table = .ok entries) : s.withTable table = .ok s := by
  obtain ⟨tables, hroot, hget⟩ := tableEntries_eq_ok_iff.1 h
  simp only [withTable, hroot, hget]

theorem withTable_of_missing (h : s.tableEntries table = .error .missing) :
    ∃ s1, s.withTable table = .ok s1 ∧ s1.tableEntries table = .ok [] ∧
      (∀ t, t ≠ table → s1.tableEntries t = s.tableEntries t) ∧ s1 = { s with root := s1.root } := by
  unfold tableEntries at h
  split at h
  · rename_i hroot
    refine ⟨_, by rw [withTable, hroot], by simp [tableEntries, Named.get?], ?_, rfl⟩
    intro t ht
    simp [tableEntries, hroot, Named.get?, ht.symm]
  · exact absurd h (by simp)
  · rename_i tables hroot
    split at h
    · rename_i hget
      refine ⟨{ s with root := some (.directory (Named.insert tables table (.directory []))) },
        by simp [withTable, hroot, hget], by simp [tableEntries], ?_, rfl⟩
      intro t ht
      simp [tableEntries, hroot, Named.get?_insert_of_ne tables _ ht]
    · exact absurd h (by simp)
    · exact absurd h (by simp)

theorem withTable_of_notDirectory (h : s.tableEntries table = .error .notDirectory) :
    ∃ cause, s.withTable table = .error cause := by
  unfold tableEntries at h
  split at h
  · exact absurd h (by simp)
  · rename_i hroot
    exact ⟨.notDirectory, by simp [withTable, hroot]⟩
  · rename_i tables hroot
    split at h
    · exact absurd h (by simp)
    · rename_i hget
      exact ⟨.alreadyExists, by simp [withTable, hroot, hget]⟩
    · exact absurd h (by simp)

/-! ## Steps within a table -/

section
variable {name new : String} {content : ByteArray}

theorem writeFile_eq (h : s.tableEntries table = .ok entries) (hname : Node.fits name = true)
    (hfree : ∀ es, entries.get? name ≠ some (.directory es)) :
    s.writeFile table name content =
      .ok (s.setTable table (entries.insert name (.file content))) := by
  rw [writeFile, h, ok_bind, hname]
  cases hget : entries.get? name with
  | none => rfl
  | some node =>
    cases node with
    | file => rfl
    | directory es => exact absurd hget (hfree es)

/-- What every change of a file asks for first: the table is there and the file's name fits. -/
theorem guarded_ok {change : Entries → Except IoCause Shelf}
    (h : (do
      let entries ← s.tableEntries table
      if !Node.fits name then throw IoCause.nameTooLong
      change entries) = .ok s') :
    ∃ entries, s.tableEntries table = .ok entries ∧ Node.fits name = true ∧
      change entries = .ok s' := by
  obtain ⟨entries, he, h⟩ := ok_of_bind h
  cases hname : Node.fits name with
  | false => exact absurd h (by simp [hname, throw_eq_error, error_bind])
  | true => exact ⟨entries, he, rfl, by simpa [hname] using h⟩

theorem writeFile_ok (h : s.writeFile table name content = .ok s') :
    ∃ entries, s.tableEntries table = .ok entries ∧ Node.fits name = true ∧
      (∀ es, entries.get? name ≠ some (.directory es)) ∧
      s' = s.setTable table (entries.insert name (.file content)) := by
  obtain ⟨entries, he, hname, hchange⟩ := guarded_ok h
  have hfree : ∀ es, entries.get? name ≠ some (.directory es) := by
    intro es hget
    exact absurd hchange (by simp [hget, throw_eq_error])
  rw [writeFile_eq he hname hfree] at h
  exact ⟨entries, he, hname, hfree, (Except.ok.inj h).symm⟩

theorem createFile_eq (h : s.tableEntries table = .ok entries) (hname : Node.fits name = true)
    (hfree : entries.get? name = none) :
    s.createFile table name content =
      .ok (s.setTable table (entries.insert name (.file content))) := by
  rw [createFile, h, ok_bind, hname]
  simp only [Bool.not_true, Bool.false_eq_true, if_false, hfree]
  rfl

theorem createFile_ok (h : s.createFile table name content = .ok s') :
    ∃ entries, s.tableEntries table = .ok entries ∧ Node.fits name = true ∧
      entries.get? name = none ∧ s' = s.setTable table (entries.insert name (.file content)) := by
  obtain ⟨entries, he, hname, hchange⟩ := guarded_ok h
  cases hget : entries.get? name with
  | some node => exact absurd hchange (by simp [hget, throw_eq_error])
  | none =>
    rw [createFile_eq he hname hget] at h
    exact ⟨entries, he, hname, hget, (Except.ok.inj h).symm⟩

theorem renameFile_eq {old : String} {node : Node} (h : s.tableEntries table = .ok entries)
    (hnew : Node.fits new = true) (hold : entries.get? old = some node)
    (hfree : ∀ es, entries.get? new ≠ some (.directory es)) :
    s.renameFile table old new = .ok (s.setTable table ((entries.erase old).insert new node)) := by
  rw [renameFile, h, ok_bind, hnew]
  simp only [Bool.not_true, Bool.false_eq_true, if_false, hold]
  cases hget : entries.get? new with
  | none => rfl
  | some there =>
    cases there with
    | file => rfl
    | directory es => exact absurd hget (hfree es)

theorem renameFile_ok {old : String} (h : s.renameFile table old new = .ok s') :
    ∃ entries node, s.tableEntries table = .ok entries ∧ Node.fits new = true ∧
      entries.get? old = some node ∧ (∀ es, entries.get? new ≠ some (.directory es)) ∧
      s' = s.setTable table ((entries.erase old).insert new node) := by
  obtain ⟨entries, he, hnew, hchange⟩ := guarded_ok h
  cases hold : entries.get? old with
  | none => exact absurd hchange (by simp [hold, throw_eq_error])
  | some node =>
    have hfree : ∀ es, entries.get? new ≠ some (.directory es) := by
      intro es hget
      exact absurd hchange (by simp [hold, hget, throw_eq_error])
    rw [renameFile_eq he hnew hold hfree] at h
    exact ⟨entries, node, he, hnew, hold, hfree, (Except.ok.inj h).symm⟩

theorem removeFile_eq (h : s.tableEntries table = .ok entries) (hname : Node.fits name = true)
    (hfile : entries.get? name = some (.file content)) :
    s.removeFile table name = .ok (s.setTable table (entries.erase name)) := by
  rw [removeFile, h, ok_bind, hname]
  simp only [Bool.not_true, Bool.false_eq_true, if_false, hfile]
  rfl

theorem removeFile_ok (h : s.removeFile table name = .ok s') :
    ∃ entries, s.tableEntries table = .ok entries ∧ s' = s.setTable table (entries.erase name) := by
  obtain ⟨entries, he, hname, hchange⟩ := guarded_ok h
  cases hget : entries.get? name with
  | none => exact absurd hchange (by simp [hget, throw_eq_error])
  | some node =>
    cases node with
    | directory es => exact absurd hchange (by simp [hget, throw_eq_error])
    | file content =>
      rw [removeFile_eq he hname hget] at h
      exact ⟨entries, he, (Except.ok.inj h).symm⟩

end

/-! ## Looking up a file -/

theorem readFile_of_error {cause : IoCause} (h : s.tableEntries table = .error cause)
    (name : String) : s.readFile table name = .error cause := by
  rw [readFile, h, error_bind]

theorem readFile_of_ok (h : s.tableEntries table = .ok entries) (name : String) :
    s.readFile table name =
      if Node.fits name = true then
        match entries.get? name with
        | none => .error .missing
        | some (.directory _) => .error .isDirectory
        | some (.file content) => .ok content
      else .error .nameTooLong := by
  rw [readFile, h, ok_bind]
  cases Node.fits name with
  | false => rfl
  | true =>
    cases entries.get? name with
    | none => rfl
    | some node => cases node <;> rfl

end Shelf

end RecordShelf

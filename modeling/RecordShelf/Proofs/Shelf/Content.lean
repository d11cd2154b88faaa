import RecordShelf.Proofs.Shelf.Steps
import RecordShelf.Proofs.Shelf.Stored

/-!
# Contents of record files

What the file of a record holds. Storing a record gives its file new content, removing a record
takes the content away, and neither changes the content of another file. A write that fails changes
no content at all.
-/

namespace RecordShelf

/-- Where a record is kept: its table and its key. -/
abbrev Place := String × String

namespace Shelf
variable {s s' : Shelf} {table key : String} {entries : Entries}

/-- The bytes of a record's file, if there is one that can be read. -/
def content (s : Shelf) (place : Place) : Option ByteArray :=
  (s.readFile place.1 (fileName place.2)).toOption

/-- The record at a place, if its file holds one. -/
def record (s : Shelf) (place : Place) : Option Record := (s.content place).bind RecordFile.decode

theorem content_eq (s : Shelf) (table key : String) : s.content (table, key) =
    if Node.fits (fileName key) = true then
      match (s.entriesOf table).get? (fileName key) with
      | some (.file bytes) => some bytes
      | _ => none
    else none := by
  rw [content]
  cases he : s.tableEntries table with
  | error cause =>
    have hnone : s.entriesOf table = [] := by
      rw [entriesOf, he]
      rfl
    rw [readFile_of_error he, hnone]
    exact (ite_self none).symm
  | ok entries =>
    have hentries : s.entriesOf table = entries := by
      rw [entriesOf, he]
      rfl
    rw [readFile_of_ok he, hentries]
    split_ifs
    · cases hget : entries.get? (fileName key) with
      | none => rfl
      | some node => cases node <;> rfl
    · rfl

/-- Contents stand in tables. -/
theorem tableEntries_of_content {bytes : ByteArray} (h : s.content (table, key) = some bytes) :
    ∃ entries, s.tableEntries table = .ok entries := by
  cases he : s.tableEntries table with
  | ok entries => exact ⟨entries, rfl⟩
  | error cause =>
    rw [content, readFile_of_error he] at h
    exact nomatch h

theorem content_congr
    (h : (s'.entriesOf table).get? (fileName key) = (s.entriesOf table).get? (fileName key)) :
    s'.content (table, key) = s.content (table, key) := by
  rw [content_eq, content_eq, h]

theorem Becomes.entriesOf (h : Becomes s table entries s') : s'.entriesOf table = entries := by
  rw [Shelf.entriesOf, h.here]
  rfl

/-- Only the files that are replaced get another content. -/
theorem Becomes.content_of_ne (h : Becomes s table entries s') {place : Place}
    (hget : ∀ k, place = (table, k) →
      entries.get? (fileName k) = (s.entriesOf table).get? (fileName k)) :
    s'.content place = s.content place := by
  obtain ⟨t, k⟩ := place
  by_cases ht : t = table
  · subst ht
    apply content_congr
    rw [h.entriesOf, hget k rfl]
  · apply content_congr
    rw [Shelf.entriesOf, Shelf.entriesOf, h.others t ht]

/-- What is read is what the file holds. -/
theorem record_of_get {r : Option Record} (h : s.get table key = .ok r) :
    s.record (table, key) = r := by
  rw [get] at h
  obtain ⟨_, -, hread⟩ := ok_of_bind h
  rw [record, content]
  cases hfile : s.readFile table (fileName key) with
  | ok bytes =>
    rw [hfile] at hread
    exact Except.ok.inj hread
  | error cause =>
    rw [hfile] at hread
    cases cause with
    | missing => exact Except.ok.inj hread
    | _ => exact absurd hread (by simp [throw_eq_error])

theorem get_of_content {bytes : ByteArray} (hkey : Names.isKey key = true)
    (htable : Names.isTable table = true) (h : s.content (table, key) = some bytes) :
    s.get table key = .ok (RecordFile.decode bytes) := by
  apply get_of_readFile_ok hkey htable
  rw [content] at h
  cases hread : s.readFile table (fileName key) with
  | error cause =>
    rw [hread] at h
    exact absurd h (by simp [Except.toOption])
  | ok there =>
    rw [hread] at h
    exact congrArg Except.ok (Option.some.inj h)

/-- A record has been written at a place, and no other content has changed. -/
structure Writes (s s' : Shelf) (place : Place) (r : Record) : Prop where
  here : s'.content place = some (RecordFile.encode r)
  others : ∀ other, other ≠ place → s'.content other = s.content other

theorem record_congr {place : Place} (h : s'.content place = s.content place) :
    s'.record place = s.record place := by
  rw [record, record, h]

theorem storable_of_record {place : Place} {r : Record} (h : s.record place = some r) :
    Storable r := by
  obtain ⟨bytes, -, hdecode⟩ := Option.bind_eq_some_iff.1 h
  exact RecordFile.storable_of_decode hdecode

/-- A table without files has no contents. -/
theorem content_of_empty (h : s.entriesOf table = []) (key : String) :
    s.content (table, key) = none := by
  rw [content_eq, h]
  exact ite_self none

/-- A file that cannot be removed because it is missing has no content. -/
theorem content_of_removeFile_missing (h : s.removeFile table (fileName key) = .error .missing) :
    s.content (table, key) = none := by
  rw [content_eq]
  split_ifs with hfits
  · cases hget : (s.entriesOf table).get? (fileName key) with
    | none => rfl
    | some node =>
      cases node with
      | directory _ => rfl
      | file bytes =>
        cases he : s.tableEntries table with
        | error cause =>
          rw [Shelf.entriesOf, he] at hget
          exact absurd hget (by simp [Except.toOption, Named.get?])
        | ok entries =>
          rw [Shelf.entriesOf, he] at hget
          rw [removeFile_eq he hfits hget] at h
          exact absurd h (by simp)
  · rfl

/-- A file can be removed exactly when it has a content. -/
theorem removeFile_ok_iff :
    (∃ s', s.removeFile table (fileName key) = .ok s') ↔
      ∃ bytes, s.content (table, key) = some bytes := by
  constructor
  · rintro ⟨s', h⟩
    obtain ⟨entries, he, hfits, hchange⟩ := guarded_ok h
    have hentries : s.entriesOf table = entries := by
      rw [entriesOf, he]
      rfl
    rw [content_eq, hentries, if_pos hfits]
    cases hget : entries.get? (fileName key) with
    | none => exact absurd hchange (by simp [hget, throw_eq_error])
    | some node =>
      cases node with
      | directory es => exact absurd hchange (by simp [hget, throw_eq_error])
      | file bytes => exact ⟨bytes, rfl⟩
  · rintro ⟨bytes, h⟩
    obtain ⟨entries, he⟩ := tableEntries_of_content h
    have hentries : s.entriesOf table = entries := by
      rw [entriesOf, he]
      rfl
    rw [content_eq, hentries] at h
    split_ifs at h with hfits
    cases hget : entries.get? (fileName key) with
    | none => exact absurd h (by simp [hget])
    | some node =>
      cases node with
      | directory es => exact absurd h (by simp [hget])
      | file content => exact ⟨_, removeFile_eq he hfits hget⟩

end Shelf

namespace ShelfM
open RecordShelf.Shelf
variable {s s' : Shelf} {table key : String} {r : Record}

theorem writes_of_put (h : (put table key r).run s = (.ok (), s')) :
    s.Writes s' (table, key) r := by
  rcases stores_or_unchanged h with ⟨-, -, hstores⟩ | ⟨⟨e, he⟩, -⟩
  · cases hstores with
    | done _ hfits hbecomes =>
      constructor
      · rw [content_eq, hbecomes.entriesOf, Named.get?_insert_self,
          if_pos (fits_fileName_of_temporaryName hfits)]
      · intro place hne
        apply hbecomes.content_of_ne
        rintro k rfl
        exact get?_stored (fun hk => hne (by rw [hk])) _
  · exact absurd he (by simp)

theorem content_of_put_error {e : Error} (h : (put table key r).run s = (.error e, s'))
    (place : Place) : s'.content place = s.content place := by
  rcases stores_or_unchanged h with ⟨-, -, hstores⟩ | ⟨-, rfl⟩
  · cases hstores with
    | refused _ hkept hbecomes =>
      apply hbecomes.content_of_ne
      rintro k rfl
      rcases hkept with rfl | rfl
      · rfl
      · exact Named.get?_erase_of_ne _ (fileName_ne_temporaryName s k key)
  · rfl

theorem content_of_ensureTable {outcome : Except Error Unit}
    (h : (ensureTable table).run s = (outcome, s')) (place : Place) :
    s'.content place = s.content place := by
  cases hcheck : checkTable table with
  | error e =>
    have hread : (ShelfM.read fun _ => checkTable table).run s = (.error e, s) := by
      rw [run_read, hcheck]
    rw [ensureTable, run_bind_of_error hread] at h
    rw [(Prod.mk.inj h).2]
  | ok _ =>
    have htable := isTable_of_checkTable hcheck
    by_cases habove : s.tableEntries table = .error .notDirectory
    · obtain ⟨e, he⟩ := run_ensureTable_blocked htable habove
      rw [(Prod.mk.inj (he.symm.trans h)).2]
    · obtain ⟨s₁, hmade, hbecomes, -⟩ := run_ensureTable htable habove
      obtain rfl := (Prod.mk.inj (hmade.symm.trans h)).2
      exact hbecomes.content_of_ne fun _ _ => rfl

theorem content_of_createFile {content : ByteArray}
    (h : s.createFile table (fileName key) content = .ok s') :
    s.content (table, key) = none ∧ s'.content (table, key) = some content ∧
      ∀ place, place ≠ (table, key) → s'.content place = s.content place := by
  obtain ⟨entries, he, hfits, hfree, rfl⟩ := createFile_ok h
  have hbecomes : Becomes s table (entries.insert (fileName key) (.file content))
      (s.setTable table (entries.insert (fileName key) (.file content))) :=
    Becomes.setTable ⟨he, fun _ _ => rfl, rfl, rfl⟩ _
  have hentries : s.entriesOf table = entries := by
    rw [entriesOf, he]
    rfl
  refine ⟨?_, ?_, fun place hne => hbecomes.content_of_ne ?_⟩
  · rw [content_eq, hentries, hfree]
    exact ite_self none
  · rw [content_eq, hbecomes.entriesOf, Named.get?_insert_self, if_pos hfits]
  · rintro k rfl
    rw [hentries]
    exact Named.get?_insert_of_ne _ _ fun hname => hne (by rw [fileName_injective hname])

/-- A record under a stamp goes where no file was. -/
theorem writes_of_putGenerated {stamp n : ℕ} (h : (putGenerated table stamp r).run s = (.ok n, s')) :
    s.content (table, String.ofList (decimalDigits n)) = none ∧
      s.Writes s' (table, String.ofList (decimalDigits n)) r := by
  obtain ⟨s₁, hmade, hcreate⟩ := createFile_of_putGenerated h
  have hsame := content_of_ensureTable hmade
  obtain ⟨hfree, hhere, hothers⟩ := content_of_createFile hcreate
  rw [hsame] at hfree
  exact ⟨hfree, hhere, fun place hne => (hothers place hne).trans (hsame place)⟩

theorem content_of_putGenerated_error {stamp : ℕ} {e : Error}
    (h : (putGenerated table stamp r).run s = (.error e, s')) (place : Place) :
    s'.content place = s.content place := by
  cases hmade : (ensureTable table).run s with
  | mk outcome s₁ =>
    have hsame := content_of_ensureTable hmade place
    cases outcome with
    | error e₁ =>
      rw [putGenerated, run_bind_of_error hmade] at h
      rw [← (Prod.mk.inj h).2, hsame]
    | ok _ =>
      rw [run_putGenerated_eq hmade] at h
      split at h
      · exact absurd (Prod.mk.inj h).1 (by simp)
      · rw [← (Prod.mk.inj h).2, hsame]

theorem run_remove_eq (s : Shelf) (table key : String) :
    (remove table key).run s =
      match checkRecord table key with
      | .error e => (.error e, s)
      | .ok _ =>
        match s.removeFile table (fileName key) with
        | .ok s' => (.ok true, s')
        | .error .missing => (.ok false, s)
        | .error cause => (.error (.io .fileDelete (s.path table (fileName key)) cause), s) := by
  cases hcheck : checkRecord table key with
  | error e =>
    have hread : (ShelfM.read fun _ => checkRecord table key).run s = (.error e, s) := by
      rw [run_read, hcheck]
    rw [remove, run_bind_of_error hread]
  | ok _ =>
    have hread : (ShelfM.read fun _ => checkRecord table key).run s = (.ok (), s) := by
      rw [run_read, hcheck]
    rw [remove, run_bind_of_ok hread, run_bind_of_ok (run_getThe s)]
    cases s.removeFile table (fileName key) with
    | ok s' => rfl
    | error cause => cases cause <;> rfl

/-- A removal that succeeds leaves no file, whether there was one or not. -/
theorem content_of_remove {removed : Bool} (hs : s.Wellformed)
    (h : (remove table key).run s = (.ok removed, s')) :
    s'.content (table, key) = none ∧
      ∀ place, place ≠ (table, key) → s'.content place = s.content place := by
  rw [run_remove_eq] at h
  split at h
  · exact absurd (Prod.mk.inj h).1 (by simp)
  · split at h
    · rename_i s₁ hremove
      obtain rfl := (Prod.mk.inj h).2
      obtain ⟨entries, he, rfl⟩ := removeFile_ok hremove
      have hbecomes : Becomes s table (entries.erase (fileName key))
          (s.setTable table (entries.erase (fileName key))) :=
        Becomes.setTable ⟨he, fun _ _ => rfl, rfl, rfl⟩ _
      have hentries : s.entriesOf table = entries := by
        rw [entriesOf, he]
        rfl
      constructor
      · rw [content_eq, hbecomes.entriesOf, Named.get?_erase_self (hs table entries he).distinct]
        exact ite_self none
      · intro place hne
        apply hbecomes.content_of_ne
        rintro k rfl
        rw [hentries]
        exact Named.get?_erase_of_ne _ fun hname => hne (by rw [fileName_injective hname])
    · rename_i hremove
      obtain rfl := (Prod.mk.inj h).2
      exact ⟨content_of_removeFile_missing hremove, fun _ _ => rfl⟩
    · exact absurd (Prod.mk.inj h).1 (by simp)

theorem shelf_of_remove_error {e : Error} (h : (remove table key).run s = (.error e, s')) :
    s' = s := by
  rw [run_remove_eq] at h
  split at h
  · exact (Prod.mk.inj h).2.symm
  · split at h
    · exact absurd (Prod.mk.inj h).1 (by simp)
    · exact absurd (Prod.mk.inj h).1 (by simp)
    · exact (Prod.mk.inj h).2.symm

theorem run_remove_of_content {bytes : ByteArray} (hkey : Names.isKey key = true)
    (htable : Names.isTable table = true) (h : s.content (table, key) = some bytes) :
    ∃ s', (remove table key).run s = (.ok true, s') := by
  obtain ⟨s', hremove⟩ := removeFile_ok_iff.2 ⟨bytes, h⟩
  refine ⟨s', ?_⟩
  rw [run_remove_eq, checkRecord_eq hkey htable, hremove]

/-- Where there is no content nothing is removed. -/
theorem shelf_of_remove_none (h : s.content (table, key) = none) :
    ((remove table key).run s).2 = s := by
  rw [run_remove_eq]
  cases checkRecord table key with
  | error e => rfl
  | ok _ =>
    cases hremove : s.removeFile table (fileName key) with
    | error cause => cases cause <;> rfl
    | ok s' =>
      obtain ⟨bytes, hbytes⟩ := removeFile_ok_iff.1 ⟨s', hremove⟩
      exact nomatch h.symm.trans hbytes

end ShelfM

end RecordShelf

import RecordShelf.Proofs.Names
import RecordShelf.Proofs.Shelf.Put
import RecordShelf.Proofs.Shelf.Remove

/-!
# Stored records

A shelf holds a record when the record's file is in its table. Then the record is read under its
key and listed. Both ways of storing a record, under a key of its own and under a stamp, leave a
shelf that holds it. A record that is stored under a key of its own changes nothing else that is
read, and nothing at all if it cannot be stored.
-/

namespace RecordShelf

theorem Storable.extend {old r : Record} (hold : Storable old) (hr : Storable r) :
    Storable (old.extend r) := by
  have hone : ∀ {fields : Record}, Storable fields →
      ∀ field ∈ fields, field.2.depth + 1 ≤ Json.depthLimit := by
    intro fields h field hfield
    have hdepth : Json.depthFields fields ≤ Json.depthFields fields := Nat.le_refl _
    exact (Nat.succ_le_succ (Json.depthFields_le_iff.1 hdepth field hfield)).trans h.depth
  have hdepth : Json.depthFields (old.extend r) ≤ Json.depthLimit - 1 := by
    refine Json.depthFields_le_iff.2 fun field hfield => Nat.le_sub_of_add_le ?_
    exact (Named.mem_extend hfield).elim (hone hold field) (hone hr field)
  exact ⟨Json.uniqueNames_extend hold.unique (Json.uniqueFields_iff.1 hr.unique.2),
    Nat.succ_le_succ hdepth⟩

/-- One field with a value that is no container. -/
theorem storable_singleton (name : String) {v : Json} (hunique : v.UniqueNames)
    (hdepth : v.depth = 0) : Storable [(name, v)] := by
  have hone : (Json.object [(name, v)]).depth = 1 := by
    rw [Json.depth, Json.depthFields, Json.depthFields, hdepth]
    rfl
  exact ⟨⟨List.nodup_singleton _, hunique, trivial⟩, hone ▸ by decide⟩

theorem Storable.insert {r : Record} (h : Storable r) (name : String) {v : Json}
    (hunique : v.UniqueNames) (hdepth : v.depth = 0) : Storable (r.insert name v) :=
  h.extend (storable_singleton name hunique hdepth)

namespace Shelf
variable {s s' : Shelf} {table key : String} {r : Record} {entries : Entries}

/-- A table has the file of a record under a key. -/
structure Holds (s : Shelf) (table key : String) (r : Record) : Prop where
  isKey : Names.isKey key = true
  isTable : Names.isTable table = true
  storable : Storable r
  fits : Node.fits (fileName key) = true
  file : ∃ entries, s.tableEntries table = .ok entries ∧
    entries.get? (fileName key) = some (.file (RecordFile.encode r))

theorem Holds.get (h : s.Holds table key r) : s.get table key = .ok (some r) := by
  obtain ⟨entries, hentries, hfile⟩ := h.file
  have hread := readFile_of_ok hentries (fileName key)
  rw [h.fits, if_pos rfl, hfile] at hread
  rw [get_of_readFile_ok h.isKey h.isTable hread, RecordFile.decode_encode h.storable]

theorem recordKey?_fileName {hideCounter : Bool} (hkey : Names.isKey key = true)
    (hshown : (hideCounter && key == counterKey) = false) :
    recordKey? hideCounter (fileName key) = some key := by
  have hne : key ≠ "" := by
    rintro rfl
    exact absurd hkey (by decide)
  unfold recordKey?
  simp only [stem?_fileName hne, hshown, hkey, Bool.not_true, Bool.or_self, Bool.false_eq_true,
    if_false]

/-- A listing has every record whose file decodes, unless it is the counter's. -/
theorem mem_scanEntries {hideCounter : Bool} {rows : List (String × Record)} {content : ByteArray}
    (hname : recordKey? hideCounter (fileName key) = some key)
    (hdecode : RecordFile.decode content = some r) (hmem : (fileName key, .file content) ∈ entries)
    (h : scanEntries hideCounter entries = .ok rows) : (key, r) ∈ rows := by
  induction entries generalizing rows with
  | nil => exact absurd hmem List.not_mem_nil
  | cons entry entries ih =>
    obtain ⟨first, rest, hfirst, hrest, rfl⟩ := scanEntries_cons_ok h
    rcases List.mem_cons.1 hmem with rfl | hmem
    · rw [scanEntries_first, hname] at hfirst
      simp only [hdecode] at hfirst
      obtain rfl := Except.ok.inj hfirst
      exact List.mem_append_left _ (List.mem_singleton_self _)
    · exact List.mem_append_right _ (ih hmem hrest)

theorem isKey_of_checkRecord (h : checkRecord table key = .ok ()) :
    Names.isKey key = true ∧ Names.isTable table = true := by
  rw [checkRecord] at h
  cases hproblem : Names.problem? .key key with
  | none =>
    rw [Names.check, hproblem] at h
    exact ⟨by rw [Names.isKey, hproblem]; rfl, isTable_of_checkTable h⟩
  | some problem =>
    rw [Names.check, hproblem] at h
    exact absurd h (by simp [throw_eq_error, Except.mapError, error_bind])

end Shelf

namespace ShelfM
open RecordShelf.Shelf
variable {s s' : Shelf} {table key : String} {r : Record}

theorem run_read_ok {α : Type} {f : Shelf → Except Error α} {a : α}
    (h : (ShelfM.read f).run s = (.ok a, s')) : f s = .ok a ∧ s' = s := by
  rw [run_read] at h
  exact ⟨(Prod.mk.inj h).1, (Prod.mk.inj h).2.symm⟩

/-- The stamp under which a record goes into a table that is there. -/
def stampIn (s : Shelf) (table : String) (stamp : ℕ) : ℕ :=
  freeStamp (s.entriesOf table) ((s.entriesOf table).length + 1) stamp

theorem run_putGenerated_eq {stamp : ℕ} (hmade : (ensureTable table).run s = (.ok (), s'))
    (r : Record) : (putGenerated table stamp r).run s =
      match s'.createFile table (fileName (String.ofList (decimalDigits (stampIn s' table stamp))))
        (RecordFile.encode r) with
      | .ok s₂ => (.ok (stampIn s' table stamp), s₂)
      | .error cause => (.error (.io .fileWrite (s'.path table
          (fileName (String.ofList (decimalDigits (stampIn s' table stamp))))) cause), s') := by
  have hstamp : freeStamp ((s'.tableEntries table).toOption.getD [])
      (((s'.tableEntries table).toOption.getD []).length + 1) stamp = stampIn s' table stamp := rfl
  rw [putGenerated, run_bind_of_ok hmade, run_bind_of_ok (run_getThe s')]
  dsimp only
  rw [hstamp]
  cases hcreate : s'.createFile table (fileName (String.ofList (decimalDigits
      (stampIn s' table stamp)))) (RecordFile.encode r) with
  | ok s₂ =>
    rw [run_bind_of_ok (run_step_of_ok hcreate)]
    rfl
  | error cause => rw [run_bind_of_error (run_step_of_error hcreate)]

/-- A record that goes under a stamp goes into a new file. -/
theorem createFile_of_putGenerated {stamp n : ℕ}
    (h : (putGenerated table stamp r).run s = (.ok n, s')) :
    ∃ s₁, (ensureTable table).run s = (.ok (), s₁) ∧
      s₁.createFile table (fileName (String.ofList (decimalDigits n))) (RecordFile.encode r) =
        .ok s' := by
  cases hmade : (ensureTable table).run s with
  | mk outcome s₁ =>
    cases outcome with
    | error e =>
      rw [putGenerated, run_bind_of_error hmade] at h
      exact absurd (Prod.mk.inj h).1 (by simp)
    | ok _ =>
      rw [run_putGenerated_eq hmade] at h
      split at h
      · rename_i hcreate
        cases h
        exact ⟨_, rfl, hcreate⟩
      · exact absurd (Prod.mk.inj h).1 (by simp)

end ShelfM

/-! ## What a write leaves as it was -/

/-- Except at one place, if one is given, every key that can name a file reads in the second shelf as
in the first. -/
def Shelf.AgreesOff (s s' : Shelf) (place : Option (String × String)) : Prop :=
  ∀ t k, Node.fits (fileName k) = true → place ≠ some (t, k) → s'.get t k = s.get t k

namespace Shelf
variable {s s' : Shelf} {place : Option (String × String)}

theorem AgreesOff.refl (s : Shelf) (place : Option (String × String)) : s.AgreesOff s place :=
  fun _ _ _ _ => rfl

theorem AgreesOff.of_none (h : s.AgreesOff s' none) (place : Option (String × String)) :
    s.AgreesOff s' place := fun t k hk _ => h t k hk (by simp)

end Shelf

namespace ShelfM
open RecordShelf.Shelf
variable {s s' : Shelf} {table key : String} {r : Record}

/-- A `put` comes as far as to write a file, or it fails before it has done anything. -/
theorem stores_or_unchanged {outcome : Except Error Unit}
    (h : (put table key r).run s = (outcome, s')) :
    (Names.isTable table = true ∧ s.tableEntries table ≠ .error .notDirectory ∧
      Stores s table key r (outcome, s')) ∨ (∃ e, outcome = .error e) ∧ s' = s := by
  cases hcheck : checkRecord table key with
  | error e =>
    have hread : (ShelfM.read fun _ => checkRecord table key).run s = (.error e, s) := by
      rw [run_read, hcheck]
    rw [put, run_bind_of_error hread] at h
    obtain ⟨rfl, rfl⟩ := Prod.mk.inj h
    exact Or.inr ⟨⟨e, rfl⟩, rfl⟩
  | ok _ =>
    obtain ⟨hkey, htable⟩ := isKey_of_checkRecord hcheck
    by_cases habove : s.tableEntries table = .error .notDirectory
    · obtain ⟨e, he⟩ := put_blocked (r := r) hkey htable habove
      obtain ⟨rfl, rfl⟩ := Prod.mk.inj (he.symm.trans h)
      exact Or.inr ⟨⟨e, rfl⟩, rfl⟩
    · have hstores := put_stores (r := r) hkey htable habove
      rw [h] at hstores
      exact Or.inl ⟨htable, habove, hstores⟩

theorem agreesOff_of_put {outcome : Except Error Unit}
    (h : (put table key r).run s = (outcome, s')) : s.AgreesOff s' (some (table, key)) ∧
      ((∃ e, outcome = .error e) → s.AgreesOff s' none) := by
  rcases stores_or_unchanged h with ⟨htable, habove, hstores⟩ | ⟨-, rfl⟩
  · cases hstores with
    | done hclear hfits hbecomes =>
      refine ⟨fun t k hk hne => ?_, fun ⟨e, he⟩ => absurd he (by simp)⟩
      refine (hbecomes.get_of_ne (fun ht => ?_) htable habove).2 fun hlong => ?_
      · exact get?_stored (fun hkey => hne (by rw [ht, hkey])) _
      · exact absurd (hk.symm.trans hlong.2.2.1) (by decide)
    | refused hblocked hkept hbecomes =>
      have hsame : s.AgreesOff s' none := by
        intro t k hk _
        refine (hbecomes.get_of_ne (fun _ => ?_) htable habove).2 fun hlong => ?_
        · rcases hkept with rfl | rfl
          · rfl
          · exact Named.get?_erase_of_ne _ (fileName_ne_temporaryName s k key)
        · exact absurd (hk.symm.trans hlong.2.2.1) (by decide)
      exact ⟨hsame.of_none _, fun _ => hsame⟩
  · exact ⟨.refl s' _, fun _ => .refl s' none⟩

end ShelfM

end RecordShelf

import RecordShelf.Proofs.Shelf.Readers

/-!
# Storing a record step by step

A record is stored by steps that each can be the last: the directories are made, the temporary file
is written in parts, and it is renamed. At every point before the renaming readers find what they
found before, and with the renaming they find the record. When the renaming fails the temporary file
is removed.
-/

namespace RecordShelf

/-- How far the storing of a record has come. -/
inductive PutPhase where
  | begun
  /-- The table is there. -/
  | made
  /-- The temporary file has its name, and a part of it may have been written. -/
  | named (temporary : String)
  /-- The temporary file has been written. -/
  | written (temporary : String)
  | renamed
  /-- The renaming has failed, and the temporary file has been removed. -/
  | withdrawn (temporary : String)
  /-- A step before the renaming has failed. -/
  | failed

namespace PutPhase

def temporary? : PutPhase → Option String
  | named temporary | written temporary | withdrawn temporary => some temporary
  | _ => none

/-- The renaming is still to come, and the temporary file has not been written. -/
def isEarly : PutPhase → Bool
  | begun | made | named _ => true
  | _ => false

end PutPhase

open PutPhase in
/-- The single steps of storing a record. Any of them can fail, also one that the directory tree
does not refuse. -/
inductive PutStep (table key : String) (r : Record) : PutPhase × Shelf → PutPhase × Shelf → Prop
  | root {s s' : Shelf} (h : s.withRoot = .ok s') : PutStep table key r (begun, s) (begun, s')
  | table {s s' : Shelf} (h : s.withTable table = .ok s') :
      PutStep table key r (begun, s) (made, s')
  | name (s : Shelf) : PutStep table key r (made, s)
      (named (s.temporaryName key), { s with written := s.written + 1 })
  | part {s s' : Shelf} {temporary : String} (content : ByteArray)
      (h : s.writeFile table temporary content = .ok s') :
      PutStep table key r (named temporary, s) (named temporary, s')
  | write {s s' : Shelf} {temporary : String}
      (h : s.writeFile table temporary (RecordFile.encode r) = .ok s') :
      PutStep table key r (named temporary, s) (written temporary, s')
  | rename {s s' : Shelf} {temporary : String}
      (h : s.renameFile table temporary (fileName key) = .ok s') :
      PutStep table key r (written temporary, s) (renamed, s')
  | withdraw {s s' : Shelf} {temporary : String} (h : s.removeFile table temporary = .ok s') :
      PutStep table key r (written temporary, s) (withdrawn temporary, s')
  | fail {phase : PutPhase} (s : Shelf) (h : phase.isEarly = true) :
      PutStep table key r (phase, s) (failed, s)

namespace Shelf
variable {s s' : Shelf} {table key : String} {r : Record} {entries : Entries}

/-! ## Where a write can stand -/

/-- The second shelf has the same tables. -/
structure Untouched (s s' : Shelf) : Prop where
  tables : ∀ t, s'.tableEntries t = s.tableEntries t
  location : s'.location = s.location
  autoIncrement : s'.autoIncrement = s.autoIncrement
  temporary : ∀ k, s'.temporaryName k = s.temporaryName k

theorem Untouched.refl (s : Shelf) : Untouched s s :=
  ⟨fun _ => rfl, rfl, rfl, fun _ => rfl⟩

theorem Untouched.withRoot {s₁ : Shelf} (h : Untouched s s₁) (hroot : s₁.withRoot = .ok s') :
    Untouched s s' := by
  obtain ⟨hauto, htables⟩ := withRoot_ok hroot
  have hrest : s'.location = s₁.location ∧ ∀ k, s'.temporaryName k = s₁.temporaryName k := by
    unfold Shelf.withRoot at hroot
    split at hroot
    · obtain rfl := Except.ok.inj hroot
      exact ⟨rfl, fun _ => rfl⟩
    · obtain rfl := Except.ok.inj hroot
      exact ⟨rfl, fun _ => rfl⟩
    · exact nomatch hroot
  refine ⟨fun t => (htables t).trans (h.tables t), hrest.1.trans h.location,
    hauto.trans h.autoIncrement, fun k => (hrest.2 k).trans (h.temporary k)⟩

theorem Untouched.reads (h : Untouched s s') (table : String) : ReadsBefore s s' table := by
  have hscan : ∀ t, s'.scan t = s.scan t := fun t =>
    scan_congr (h.tables t) h.location h.autoIncrement
  refine ⟨fun t k => ⟨?_, fun _ => ?_⟩, hscan, fun t => by rw [list, list, hscan]⟩
  · rintro - ⟨rfl, -, -, hmissing, hmade⟩
    exact hmade ((h.tables t).trans hmissing)
  · exact get_congr (readFile_congr (h.tables t) _) h.location

theorem Untouched.becomes {s₁ : Shelf} (h : Untouched s s₁)
    (hbecomes : Becomes s₁ table entries s') : Becomes s table entries s' :=
  ⟨hbecomes.here, fun t ht => (hbecomes.others t ht).trans (h.tables t),
    hbecomes.location.trans h.location, hbecomes.autoIncrement.trans h.autoIncrement⟩

/-- What the shelf has become at each point of a write that began on another one. -/
inductive Halfway (s : Shelf) (table key : String) (r : Record) : PutPhase × Shelf → Prop
  | begun {s' : Shelf} (same : Untouched s s') : Halfway s table key r (.begun, s')
  | made {s' : Shelf} (above : s.tableEntries table ≠ .error .notDirectory)
      (becomes : Becomes s table (s.entriesOf table) s')
      (temporary : s'.temporaryName key = s.temporaryName key) : Halfway s table key r (.made, s')
  | named {s' : Shelf} {entries : Entries} (above : s.tableEntries table ≠ .error .notDirectory)
      (becomes : Becomes s table entries s')
      (part : entries = s.entriesOf table ∨
        ∃ content, entries = (s.entriesOf table).insert (s.temporaryName key) (.file content)) :
      Halfway s table key r (.named (s.temporaryName key), s')
  | written {s' : Shelf} (above : s.tableEntries table ≠ .error .notDirectory)
      (fits : Node.fits (s.temporaryName key) = true)
      (becomes : Becomes s table ((s.entriesOf table).insert (s.temporaryName key)
        (.file (RecordFile.encode r))) s') :
      Halfway s table key r (.written (s.temporaryName key), s')
  | renamed {s' : Shelf} (above : s.tableEntries table ≠ .error .notDirectory)
      (fits : Node.fits (fileName key) = true)
      (free : ∀ es, (s.entriesOf table).get? (fileName key) ≠ some (.directory es))
      (becomes : Becomes s table (((s.entriesOf table).erase (s.temporaryName key)).insert
        (fileName key) (.file (RecordFile.encode r))) s') : Halfway s table key r (.renamed, s')
  | withdrawn {s' : Shelf} (above : s.tableEntries table ≠ .error .notDirectory)
      (becomes : Becomes s table ((s.entriesOf table).erase (s.temporaryName key)) s') :
      Halfway s table key r (.withdrawn (s.temporaryName key), s')
  | failed {s' : Shelf} (reads : ReadsBefore s s' table) : Halfway s table key r (.failed, s')

/-- Before the renaming readers find what they found before. -/
theorem Halfway.reads {phase : PutPhase} (h : Halfway s table key r (phase, s'))
    (htable : Names.isTable table = true) (hphase : phase ≠ .renamed) : ReadsBefore s s' table := by
  have hunwritten : Beside (s.temporaryName key) (s.entriesOf table) (s.entriesOf table) :=
    .unwritten
  cases h with
  | begun same => exact same.reads table
  | made above becomes _ => exact becomes.reads htable above hunwritten
  | named above becomes part =>
    rcases part with rfl | ⟨content, rfl⟩
    · exact becomes.reads htable above hunwritten
    · exact becomes.reads htable above (.written content)
  | written above _ becomes => exact becomes.reads htable above (.written _)
  | renamed => exact absurd rfl hphase
  | withdrawn above becomes => exact becomes.reads htable above .removed
  | failed reads => exact reads

theorem Halfway.made_of_withTable {s₁ : Shelf} (h : Untouched s s₁)
    (hmade : s₁.withTable table = .ok s') : Halfway s table key r (.made, s') := by
  have habove : s₁.tableEntries table ≠ .error .notDirectory := by
    intro hblocked
    obtain ⟨cause, hcause⟩ := withTable_of_notDirectory hblocked
    exact nomatch hcause.symm.trans hmade
  have hentries : s₁.entriesOf table = s.entriesOf table := by
    rw [entriesOf, entriesOf, h.tables]
  obtain ⟨s₂, hmade₂, hbecomes, hprocess, hwritten⟩ := becomes_withTable habove
  obtain rfl := Except.ok.inj (hmade₂.symm.trans hmade)
  rw [hentries] at hbecomes
  rw [h.tables] at habove
  refine .made habove (h.becomes hbecomes) ?_
  rw [← h.temporary, temporaryName, temporaryName, hprocess, hwritten]

/-- A temporary file is written over the part that is there. -/
theorem insert_of_part {before : Entries} {temporary : String} (h : entries = before ∨
    ∃ content, entries = before.insert temporary (.file content)) (node : Node) :
    entries.insert temporary node = before.insert temporary node := by
  rcases h with rfl | ⟨content, rfl⟩
  · rfl
  · exact Named.insert_insert_self _ _ _ _

theorem Halfway.step (htable : Names.isTable table = true) {before after : PutPhase × Shelf}
    (h : Halfway s table key r before) (hstep : PutStep table key r before after) :
    Halfway s table key r after := by
  cases hstep with
  | root hroot =>
    cases h with
    | begun same => exact .begun (same.withRoot hroot)
  | table hmade =>
    cases h with
    | begun same => exact .made_of_withTable same hmade
  | name s₁ =>
    cases h with
    | made above becomes temporary =>
      rw [temporary]
      exact .named above ⟨becomes.here, becomes.others, becomes.location, becomes.autoIncrement⟩
        (Or.inl rfl)
  | part content hwrite =>
    cases h with
    | named above becomes part =>
      obtain ⟨-, -, hbecomes⟩ := becomes.of_writeFile hwrite
      exact .named above hbecomes (Or.inr ⟨content, insert_of_part part _⟩)
  | write hwrite =>
    cases h with
    | named above becomes part =>
      obtain ⟨hfits, -, hbecomes⟩ := becomes.of_writeFile hwrite
      rw [insert_of_part part] at hbecomes
      exact .written above hfits hbecomes
  | rename hrename =>
    cases h with
    | written above fits becomes =>
      obtain ⟨hfits, hfree, hbecomes⟩ :=
        becomes.of_renameFile (fileName_ne_temporaryName s key key) hrename
      exact .renamed above hfits hfree hbecomes
  | withdraw hremove =>
    cases h with
    | written above fits becomes =>
      exact .withdrawn above (becomes.of_removeFile hremove)
  | fail s₁ hearly =>
    refine .failed (h.reads htable ?_)
    rintro rfl
    exact nomatch hearly

/-- A written temporary file can be removed. -/
theorem Halfway.removeFile {temporary : String}
    (h : Halfway s table key r (.written temporary, s')) :
    ∃ s'', s'.removeFile table temporary = .ok s'' := by
  cases h with
  | written _ fits becomes =>
    exact ⟨_, removeFile_eq becomes.here fits (Named.get?_insert_self _ _ _)⟩

/-- A temporary file is no record's file, and no listing takes it for one. -/
theorem Halfway.temporary {phase : PutPhase} (h : Halfway s table key r (phase, s'))
    {temporary : String} (ht : phase.temporary? = some temporary) :
    (∀ k, fileName k ≠ temporary) ∧
      ∀ hideCounter, recordKey? hideCounter temporary = none := by
  have hname : s.temporaryName key = temporary := by
    cases h with
    | named | written | withdrawn => exact Option.some.inj ht
    | begun | made | renamed | failed => exact nomatch ht
  subst hname
  exact ⟨fun k => fileName_ne_temporaryName s k key, fun _ => recordKey?_temporaryName _ s key⟩

end Shelf

namespace ShelfM
open RecordShelf.Shelf
variable {s : Shelf} {table key : String}

end ShelfM

end RecordShelf

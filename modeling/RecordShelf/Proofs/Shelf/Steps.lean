import RecordShelf.Proofs.Shelf.Remove

/-!
# Steps of a shelf

Everything that is done to a shelf comes down to a few single steps. None of them changes which
tables are numbered, and none spoils the names in a directory. Where the names are valid, only the
directory tree can refuse a step.
-/

namespace RecordShelf

/-- An error that comes from the directory tree. -/
def Error.IsIo : Error → Prop
  | .io .. => True
  | _ => False

namespace Shelf

/-- The single changes of a shelf. -/
inductive Step (s : Shelf) : Shelf → Prop
  | count : Step s { s with written := s.written + 1 }
  | root {s' : Shelf} (h : s.withRoot = .ok s') : Step s s'
  | table {s' : Shelf} (table : String) (h : s.withTable table = .ok s') : Step s s'
  | write {s' : Shelf} (table name : String) (content : ByteArray)
      (h : s.writeFile table name content = .ok s') : Step s s'
  | create {s' : Shelf} (table name : String) (content : ByteArray)
      (h : s.createFile table name content = .ok s') : Step s s'
  | rename {s' : Shelf} (table old new : String) (h : s.renameFile table old new = .ok s') : Step s s'
  | remove {s' : Shelf} (table name : String) (h : s.removeFile table name = .ok s') : Step s s'

variable {s s' : Shelf}

theorem withRoot_ok (h : s.withRoot = .ok s') :
    s'.autoIncrement = s.autoIncrement ∧ ∀ t, s'.tableEntries t = s.tableEntries t := by
  unfold withRoot at h
  split at h
  · rename_i hroot
    obtain rfl := Except.ok.inj h
    exact ⟨rfl, fun t => by simp [tableEntries, hroot, Named.get?]⟩
  · obtain rfl := Except.ok.inj h
    exact ⟨rfl, fun _ => rfl⟩
  · exact absurd h (by simp)

theorem withTable_ok {table : String} (h : s.withTable table = .ok s') :
    Becomes s table (s.entriesOf table) s' := by
  have habove : s.tableEntries table ≠ .error .notDirectory := by
    intro hblocked
    obtain ⟨cause, hcause⟩ := withTable_of_notDirectory hblocked
    rw [hcause] at h
    exact absurd h (by simp)
  obtain ⟨s₁, hmade, hbecomes, -⟩ := becomes_withTable habove
  obtain rfl := Except.ok.inj (hmade.symm.trans h)
  exact hbecomes

/-- A step leaves the tables as they are or gives one of them other entries, which have distinct
names that fit if the old ones had. -/
theorem Step.cases_becomes (h : Step s s') :
    (s'.autoIncrement = s.autoIncrement ∧ ∀ t, s'.tableEntries t = s.tableEntries t) ∨
      ∃ table entries, Becomes s table entries s' ∧ (Sound (s.entriesOf table) → Sound entries) := by
  have hreplaced : ∀ {table : String} {entries replaced : Entries},
      s.tableEntries table = .ok entries → (Sound entries → Sound replaced) →
        ∃ t there, Becomes s t there (s.setTable table replaced) ∧
          (Sound (s.entriesOf t) → Sound there) := by
    intro table entries replaced he hsound
    refine ⟨table, replaced, Becomes.setTable ⟨he, fun _ _ => rfl, rfl, rfl⟩ replaced, ?_⟩
    rw [entriesOf, he]
    exact hsound
  cases h with
  | count => exact Or.inl ⟨rfl, fun _ => rfl⟩
  | root h => exact Or.inl (withRoot_ok h)
  | table table h => exact Or.inr ⟨table, _, withTable_ok h, id⟩
  | write table name content h =>
    obtain ⟨entries, he, hname, -, rfl⟩ := writeFile_ok h
    exact Or.inr (hreplaced he fun hsound => hsound.insert hname _)
  | create table name content h =>
    obtain ⟨entries, he, hname, -, rfl⟩ := createFile_ok h
    exact Or.inr (hreplaced he fun hsound => hsound.insert hname _)
  | rename table old new h =>
    obtain ⟨entries, node, he, hnew, -, -, rfl⟩ := renameFile_ok h
    exact Or.inr (hreplaced he fun hsound => (hsound.erase old).insert hnew node)
  | remove table name h =>
    obtain ⟨entries, he, rfl⟩ := removeFile_ok h
    exact Or.inr (hreplaced he fun hsound => hsound.erase name)

theorem Step.autoIncrement (h : Step s s') : s'.autoIncrement = s.autoIncrement := by
  rcases h.cases_becomes with ⟨hauto, -⟩ | ⟨table, entries, hbecomes, -⟩
  · exact hauto
  · exact hbecomes.autoIncrement

theorem Step.wellformed (h : Step s s') (hs : s.Wellformed) : s'.Wellformed := by
  rcases h.cases_becomes with ⟨-, hsame⟩ | ⟨table, entries, hbecomes, hsound⟩
  · intro t there ht
    exact hs t there (by rw [← hsame, ht])
  · exact hbecomes.wellformed hs (hsound (hs.entriesOf table))

end Shelf

namespace ShelfM
open RecordShelf.Shelf
variable {α : Type}

theorem moves_read {step : Shelf → Shelf → Prop} (f : Shelf → Except Error α) :
    Moves step (read f) := by
  intro s
  rw [run_read]

theorem moves_step {action : IoAction} {path : String} {f : Shelf → Except IoCause Shelf}
    (hf : ∀ s s', f s = .ok s' → Step s s') : Moves Step (step action path f) := by
  intro s
  cases h : f s with
  | ok s' =>
    rw [run_step_of_ok h]
    exact .single (hf s s' h)
  | error cause => rw [run_step_of_error h]

theorem moves_ensureTable (table : String) : Moves Step (ensureTable table) := by
  refine .bind (moves_read _) fun _ => .get_bind fun s => ?_
  exact moves_step (fun _ _ h => .table table h) s

theorem moves_openTables (tables : List String) : Moves Step (openTables tables) := by
  refine .get_bind fun s => Moves.bind (moves_step fun _ _ h => .root h) (fun _ => ?_) s
  exact .forM moves_ensureTable tables

theorem moves_publish (table temporary key : String) : Moves Step (publish table temporary key) := by
  intro s
  rw [run_publish]
  cases hrename : s.renameFile table temporary (fileName key) with
  | ok s' => exact .single (.rename table temporary (fileName key) hrename)
  | error cause =>
    cases hremove : s.removeFile table temporary with
    | ok s' => exact .single (.remove table temporary hremove)
    | error other => exact .refl

theorem moves_put (table key : String) (r : Record) : Moves Step (put table key r) := by
  refine .bind (moves_read _) fun _ => .bind (moves_ensureTable table) fun _ => .bind ?_ ?_
  · exact fun s => .single .count
  · intro temporary
    refine .get_bind fun s => Moves.bind ?_ (fun _ => moves_publish table temporary key) s
    exact moves_step fun _ _ h => .write table temporary _ h

theorem moves_remove (table key : String) : Moves Step (remove table key) := by
  refine .bind (moves_read _) fun _ => .get_bind fun s => ?_
  cases hremove : s.removeFile table (fileName key) with
  | ok s' => exact .single (.remove table (fileName key) hremove)
  | error cause => cases cause <;> exact .refl

theorem moves_putGenerated (table : String) (stamp : ℕ) (r : Record) :
    Moves Step (putGenerated table stamp r) := by
  refine .bind (moves_ensureTable table) fun _ => .get_bind fun s => ?_
  exact Moves.bind (moves_step fun _ _ h => .create table _ _ h) (fun _ => .pure _) s

theorem moves_nextId (table : String) : Moves Step (nextId table) :=
  .bind (moves_read _) fun _ => .bind (moves_put table _ _) fun _ => .pure _

/-! ## Errors -/

theorem raises_step {action : IoAction} {path : String} {f : Shelf → Except IoCause Shelf} :
    Raises Error.IsIo (step action path f) := by
  intro s e s' h
  cases hf : f s with
  | ok s₁ =>
    rw [run_step_of_ok hf] at h
    exact absurd (Prod.mk.inj h).1 (by simp)
  | error cause =>
    rw [run_step_of_error hf] at h
    obtain rfl := Except.error.inj (Prod.mk.inj h).1
    exact trivial

theorem raises_read {f : Shelf → Except Error α} {kind : Error → Prop}
    (hf : ∀ s e, f s = .error e → kind e) : Raises kind (read f) := by
  intro s e s' h
  rw [run_read] at h
  exact hf s e (Prod.mk.inj h).1

theorem raises_publish (table temporary key : String) :
    Raises Error.IsIo (publish table temporary key) := by
  intro s e s' h
  rw [run_publish] at h
  split at h
  · exact absurd (Prod.mk.inj h).1 (by simp)
  · obtain rfl := Except.error.inj (Prod.mk.inj h).1
    exact trivial

section
variable {table key : String}

theorem raises_ensureTable (htable : Names.isTable table = true) :
    Raises Error.IsIo (ensureTable table) := by
  refine .bind (raises_read fun _ e he => ?_) fun _ => .bind .get fun _ => raises_step
  rw [checkTable_eq htable] at he
  exact absurd he (by simp)

theorem raises_get (hkey : Names.isKey key = true) (htable : Names.isTable table = true) :
    Raises Error.IsIo (get table key) := by
  refine raises_read fun s e he => ?_
  rw [Shelf.get, checkRecord_eq hkey htable, ok_bind] at he
  split at he
  · exact absurd he (by simp [pure, Except.pure])
  · exact absurd he (by simp [pure, Except.pure])
  · obtain rfl := Except.error.inj he
    exact trivial

/-- With valid names only the directory tree refuses a record. -/
theorem raises_put (hkey : Names.isKey key = true) (htable : Names.isTable table = true)
    (r : Record) : Raises Error.IsIo (put table key r) := by
  refine .bind (raises_read fun _ e he => ?_) fun _ => .bind (raises_ensureTable htable) fun _ =>
    .bind ?_ fun temporary => .bind .get fun _ => .bind raises_step fun _ =>
      raises_publish table temporary key
  · rw [checkRecord_eq hkey htable] at he
    exact absurd he (by simp)
  · exact fun _ _ _ h => absurd (Prod.mk.inj h).1 (by simp)

theorem raises_nextId (htable : Names.isTable table = true) : Raises Error.IsIo (nextId table) :=
  have hcounter : Names.isKey counterKey = true := by decide
  .bind (raises_get hcounter htable) fun _ =>
    .bind (raises_put hcounter htable _) fun _ => .pure _

end

end ShelfM

end RecordShelf

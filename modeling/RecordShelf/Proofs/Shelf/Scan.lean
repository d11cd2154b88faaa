import RecordShelf.Proofs.Shelf.Tables

/-!
# Listing the records of a table

A listing gives each record under the key of its file, and taking files away takes exactly their
records out of the listing.
-/

namespace RecordShelf

theorem fileName_of_stem? {name key : String} (h : stem? name = some key) : fileName key = name := by
  unfold stem? at h
  dsimp only at h
  split_ifs at h with hcond
  obtain ⟨-, hdrop⟩ := hcond
  cases h
  have hboth := List.take_append_drop (name.toList.length - recordSuffix.toList.length) name.toList
  rw [hdrop] at hboth
  apply String.toList_inj.1
  rw [fileName, String.toList_append, String.toList_ofList, hboth]

namespace Shelf
variable {s : Shelf} {table : String} {entries : Entries} {rows : List (String × Record)}
  {hideCounter : Bool}

/-- A file of a table that a listing shows as the record of a key. -/
def Shows (entries : Entries) (row : String × Record) : Prop :=
  Names.isKey row.1 = true ∧
    ∃ content, (fileName row.1, Node.file content) ∈ entries ∧
      RecordFile.decode content = some row.2

theorem Shows.mem_names {row : String × Record} (h : Shows entries row) :
    fileName row.1 ∈ entries.names := by
  obtain ⟨-, _, hmem, -⟩ := h
  exact List.mem_map.2 ⟨_, hmem, rfl⟩

theorem Shows.not_directory {row : String × Record} (h : Shows entries row)
    (hdistinct : entries.names.Nodup) (es : List (String × Node)) :
    entries.get? (fileName row.1) ≠ some (.directory es) := by
  obtain ⟨-, _, hmem, -⟩ := h
  rw [Named.get?_of_mem hdistinct hmem]
  simp

theorem recordKey?_eq_some {name key : String} (h : recordKey? hideCounter name = some key) :
    fileName key = name ∧ Names.isKey key = true := by
  unfold recordKey? at h
  cases hstem : stem? name with
  | none => simp [hstem] at h
  | some stem =>
    simp only [hstem] at h
    split_ifs at h with hhidden
    cases h
    rw [Bool.or_eq_true, not_or, Bool.not_eq_true', Bool.not_eq_false] at hhidden
    exact ⟨fileName_of_stem? hstem, hhidden.2⟩

/-- The first entry of a listing, as its own equation: those that Lean makes for each branch are
slow. -/
theorem scanEntries_first (name : String) (node : Node) (entries : Entries) :
    scanEntries hideCounter ((name, node) :: entries) =
      match recordKey? hideCounter name, node with
      | none, _ => scanEntries hideCounter entries
      | some _, .directory _ => .error name
      | some key, .file content =>
        match RecordFile.decode content with
        | some r => (scanEntries hideCounter entries).map ((key, r) :: ·)
        | none => scanEntries hideCounter entries := rfl

/-- A listing is made of what each entry shows. -/
theorem scanEntries_cons (entry : String × Node) (entries : Entries) :
    scanEntries hideCounter (entry :: entries) = (do
      let first ← scanEntries hideCounter [entry]
      let rest ← scanEntries hideCounter entries
      return first ++ rest) := by
  obtain ⟨name, node⟩ := entry
  rw [scanEntries_first, scanEntries_first]
  split
  · cases scanEntries hideCounter entries <;> rfl
  · rfl
  · split
    · cases scanEntries hideCounter entries <;> rfl
    · cases scanEntries hideCounter entries <;> rfl

theorem scanEntries_cons_ok {entry : String × Node}
    (h : scanEntries hideCounter (entry :: entries) = .ok rows) :
    ∃ first rest, scanEntries hideCounter [entry] = .ok first ∧
      scanEntries hideCounter entries = .ok rest ∧ rows = first ++ rest := by
  rw [scanEntries_cons] at h
  cases hfirst : scanEntries hideCounter [entry] with
  | error e =>
    rw [hfirst, error_bind] at h
    exact absurd h (by simp)
  | ok first =>
    cases hrest : scanEntries hideCounter entries with
    | error e =>
      rw [hfirst, hrest, ok_bind, error_bind] at h
      exact absurd h (by simp)
    | ok rest =>
      rw [hfirst, hrest, ok_bind, ok_bind] at h
      exact ⟨first, rest, rfl, rfl, (Except.ok.inj h).symm⟩

/-- An entry shows at most one record, that of its own file. -/
theorem scanEntries_singleton {name : String} {node : Node}
    (h : scanEntries hideCounter [(name, node)] = .ok rows) :
    rows = [] ∨ ∃ key content r, rows = [(key, r)] ∧ node = .file content ∧ fileName key = name ∧
      Names.isKey key = true ∧ RecordFile.decode content = some r := by
  rw [scanEntries_first] at h
  split at h
  · exact Or.inl (Except.ok.inj h).symm
  · exact absurd h (by simp)
  · rename_i key content hkey
    obtain ⟨hname, hvalid⟩ := recordKey?_eq_some hkey
    split at h
    · rename_i r hdecode
      exact Or.inr ⟨key, content, r, (Except.ok.inj h).symm, rfl, hname, hvalid, hdecode⟩
    · exact Or.inl (Except.ok.inj h).symm

/-- Entries can be listed unless a directory stands where a record's file would be. -/
theorem scanEntries_ok_iff : (∃ rows, scanEntries hideCounter entries = .ok rows) ↔
    ∀ name es, (name, Node.directory es) ∈ entries → recordKey? hideCounter name = none := by
  induction entries with
  | nil => exact ⟨fun _ _ _ h => absurd h List.not_mem_nil, fun _ => ⟨[], rfl⟩⟩
  | cons entry entries ih =>
    have hfirst : (∃ first, scanEntries hideCounter [entry] = .ok first) ↔
        ∀ es, entry.2 = .directory es → recordKey? hideCounter entry.1 = none := by
      obtain ⟨name, node⟩ := entry
      rw [scanEntries_first]
      split
      · rename_i hkey
        exact ⟨fun _ _ _ => hkey, fun _ => ⟨[], rfl⟩⟩
      · rename_i hkey
        constructor
        · rintro ⟨_, h⟩
          exact nomatch h
        · intro h
          exact nomatch hkey.symm.trans (h _ rfl)
      · constructor
        · intro _ _ h
          exact nomatch h
        · intro _
          split <;> exact ⟨_, rfl⟩
    constructor
    · rintro ⟨rows, h⟩ name es hmem
      obtain ⟨first, rest, hone, hrest, -⟩ := scanEntries_cons_ok h
      rcases List.mem_cons.1 hmem with rfl | hmem
      · exact hfirst.1 ⟨first, hone⟩ es rfl
      · exact ih.1 ⟨rest, hrest⟩ name es hmem
    · intro h
      obtain ⟨first, hone⟩ := hfirst.2 fun es hes => h entry.1 es (hes ▸ List.mem_cons_self)
      obtain ⟨rest, hrest⟩ := ih.2 fun name es hmem => h name es (List.mem_cons_of_mem _ hmem)
      exact ⟨first ++ rest, by rw [scanEntries_cons, hone, hrest]; rfl⟩

theorem shows_of_scanEntries (h : scanEntries hideCounter entries = .ok rows) :
    ∀ row ∈ rows, Shows entries row := by
  induction entries generalizing rows with
  | nil =>
    obtain rfl := Except.ok.inj h
    exact fun row hrow => absurd hrow List.not_mem_nil
  | cons entry entries ih =>
    obtain ⟨first, rest, hfirst, hrest, rfl⟩ := scanEntries_cons_ok h
    intro row hrow
    rcases List.mem_append.1 hrow with hrow | hrow
    · rcases scanEntries_singleton hfirst with rfl | ⟨key, content, r, rfl, hnode, hname, hkey, hr⟩
      · exact absurd hrow List.not_mem_nil
      · obtain rfl := List.mem_singleton.1 hrow
        refine ⟨hkey, content, ?_, hr⟩
        rw [hname, ← hnode]
        exact List.mem_cons_self
    · obtain ⟨hkey, content, hmem, hr⟩ := ih hrest row hrow
      exact ⟨hkey, content, List.mem_cons_of_mem _ hmem, hr⟩

/-- The files of listed records stand in the order of the listing. -/
theorem sublist_of_scanEntries (h : scanEntries hideCounter entries = .ok rows) :
    (rows.map fun row => fileName row.1).Sublist entries.names := by
  induction entries generalizing rows with
  | nil =>
    obtain rfl := Except.ok.inj h
    exact List.Sublist.slnil
  | cons entry entries ih =>
    obtain ⟨first, rest, hfirst, hrest, rfl⟩ := scanEntries_cons_ok h
    rcases scanEntries_singleton hfirst with rfl | ⟨key, content, r, rfl, -, hname, -, -⟩
    · exact (ih hrest).cons _
    · rw [List.singleton_append, List.map_cons, hname]
      exact (ih hrest).cons_cons _

/-- Records that a listing has found have files of their own. -/
theorem nodup_files (hdistinct : entries.names.Nodup) (h : scanEntries hideCounter entries = .ok rows)
    {found : List (String × Record)} (hsub : found.Sublist rows) :
    (found.map fun row => fileName row.1).Nodup :=
  ((hsub.map fun row => fileName row.1).trans (sublist_of_scanEntries h)).nodup hdistinct

/-- Taking files away takes exactly their records out of the listing. -/
theorem scanEntries_filter (h : scanEntries hideCounter entries = .ok rows)
    (keep : String → Bool) :
    scanEntries hideCounter (entries.filter fun entry => keep entry.1) =
      .ok (rows.filter fun row => keep (fileName row.1)) := by
  induction entries generalizing rows with
  | nil =>
    obtain rfl := Except.ok.inj h
    rfl
  | cons entry entries ih =>
    obtain ⟨first, rest, hfirst, hrest, rfl⟩ := scanEntries_cons_ok h
    have hkept : (first.filter fun row => keep (fileName row.1)) =
        if keep entry.1 = true then first else [] := by
      rcases scanEntries_singleton hfirst with rfl | ⟨key, content, r, rfl, -, hname, -, -⟩
      · rw [List.filter_nil, ite_self]
      · rw [List.filter_singleton, hname]
        cases keep entry.1 <;> rfl
    cases hkeep : keep entry.1 with
    | false =>
      rw [List.filter_cons_of_neg (by simp [hkeep]), ih hrest, List.filter_append, hkept, hkeep]
      rfl
    | true =>
      rw [List.filter_cons_of_pos (p := fun entry : String × Node => keep entry.1) hkeep,
        scanEntries_cons, hfirst, ih hrest, List.filter_append,
        hkept, hkeep]
      rfl

/-- A numbered table is listed as if its counter had no file. -/
theorem scanEntries_without_counter (entries : Entries) :
    scanEntries true (entries.filter fun entry => entry.1 ≠ fileName counterKey) =
      scanEntries true entries := by
  induction entries with
  | nil => rfl
  | cons entry entries ih =>
    by_cases hname : entry.1 = fileName counterKey
    · have hhidden : recordKey? true entry.1 = none := by
        rw [hname]
        decide
      have hskip : scanEntries true (entry :: entries) = scanEntries true entries := by
        rw [scanEntries_first, hhidden]
      rw [List.filter_cons_of_neg (by simp [hname]), ih, hskip]
    · rw [List.filter_cons_of_pos (by simp [hname]), scanEntries_cons, ih, ← scanEntries_cons]

theorem ne_counterKey_of_scanEntries (h : scanEntries true entries = .ok rows) :
    ∀ row ∈ rows, row.1 ≠ counterKey := by
  rw [← scanEntries_without_counter] at h
  intro row hrow hkey
  obtain ⟨-, content, hfile, -⟩ := shows_of_scanEntries h row hrow
  have hkept := of_decide_eq_true (List.mem_filter.1 hfile).2
  exact hkept (by rw [hkey])

end Shelf

end RecordShelf

import RecordShelf.Proofs.Query.Delete
import RecordShelf.Proofs.Shelf.Content

/-!
# Listings and single reads

A listing comes from the names of files to keys and a single read from a key to the name of a file.
Both meet the same records: a listing shows exactly what is read under the valid keys, but for the
counter of a numbered table, and each key once.
-/

namespace RecordShelf

namespace Shelf
variable {s : Shelf} {table key : String} {r : Record} {entries : Entries}
  {rows : List (String × Record)}

/-- What is read has a file in the table. -/
theorem file_of_get (h : s.get table key = .ok (some r)) :
    ∃ entries content, s.tableEntries table = .ok entries ∧
      entries.get? (fileName key) = some (.file content) ∧ RecordFile.decode content = some r := by
  obtain ⟨content, hcontent, hdecode⟩ := Option.bind_eq_some_iff.1 (record_of_get h)
  obtain ⟨entries, he⟩ := tableEntries_of_content hcontent
  have hentries : s.entriesOf table = entries := by
    rw [entriesOf, he]
    rfl
  rw [content_eq, hentries] at hcontent
  split_ifs at hcontent with hfits
  split at hcontent
  · rename_i bytes hget
    obtain rfl := Option.some.inj hcontent
    exact ⟨entries, bytes, he, hget, hdecode⟩
  · exact absurd hcontent (Option.some_ne_none _).symm

/-- A listing shows a record under a key exactly when the key is valid and not the hidden counter's,
and the record is read under it. -/
theorem mem_scan_iff (hs : s.Wellformed) (hscan : s.scan table = .ok rows) :
    (key, r) ∈ rows ↔ Names.isKey key = true ∧
      ¬(s.isAutoIncrement table = true ∧ key = counterKey) ∧
      s.get table key = .ok (some r) := by
  constructor
  · intro hrow
    obtain ⟨htable, ⟨-, rfl⟩ | ⟨entries, he, hentries⟩⟩ := scan_ok hscan
    · exact absurd hrow List.not_mem_nil
    · have hshows : Shows entries (key, r) := shows_of_scanEntries hentries _ hrow
      refine ⟨hshows.1, ?_, get_of_shows htable he (hs table entries he) hshows⟩
      rintro ⟨hauto, hkey⟩
      exact ne_counterKey_of_scan hauto hscan _ hrow hkey
  · rintro ⟨hkey, hvisible, hget⟩
    obtain ⟨entries, content, he, hfile, hdecode⟩ := file_of_get hget
    have hshown : (s.isAutoIncrement table && key == counterKey) = false := by
      rw [Bool.and_eq_false_iff, beq_eq_false_iff_ne, ← Bool.not_eq_true]
      exact not_and_or.1 hvisible
    exact mem_scanEntries (recordKey?_fileName hkey hshown) hdecode (Named.mem_of_get? hfile)
      (scan_there hscan he).2

/-- A listing shows each key at most once. -/
theorem nodup_keys_scan (hs : s.Wellformed) (hscan : s.scan table = .ok rows) :
    (rows.map (·.1)).Nodup := by
  obtain ⟨-, ⟨-, rfl⟩ | ⟨entries, he, hentries⟩⟩ := scan_ok hscan
  · exact List.nodup_nil
  · have hfiles := nodup_files (hs table entries he).distinct hentries (List.Sublist.refl rows)
    exact List.Nodup.of_map fileName (by rwa [List.map_map])

/-- A table can be listed when it is missing or nothing obstructs it. -/
theorem exists_scan (htable : Names.isTable table = true)
    (habove : s.tableEntries table ≠ .error .notDirectory) (hclear : s.Unobstructed table) :
    ∃ rows, s.scan table = .ok rows := by
  cases he : s.tableEntries table with
  | ok entries => exact (scan_ok_iff htable he).2 hclear
  | error cause =>
    rcases tableEntries_error he with rfl | rfl
    · refine ⟨[], ?_⟩
      rw [scan, checkTable_eq htable, ok_bind, he]
      rfl
    · exact absurd he habove

/-- Regular files obstruct nothing. -/
theorem unobstructed_of_files
    (h : (s.entriesOf table).all (fun entry => !entry.2.isDirectory) = true) :
    s.Unobstructed table := by
  intro name es hmem
  exact absurd (List.all_eq_true.1 h _ hmem) Bool.false_ne_true

end Shelf

namespace Query
open Sql
variable {s : Shelf} {table : String} {rows : List (String × Record)}

/-- A SELECT without conditions, order and bounds. -/
def selectAll (columns : List Column) (table : String) : Select :=
  ⟨columns, table, [], [], none, none⟩

theorem run_selectAll (rules : Rules) (hscan : s.scan table = .ok rows) (columns : List Column)
    (params : Params) :
    (executeSelect rules (selectAll columns table) params).run s =
      (.ok (.rows (match (selectAll columns table).countLabel with
        | some label => [[(label, .ofNat rows.length)]]
        | none => rows.map (·.2))), s) := by
  have hall : matching rules [] rows = rows := List.filter_eq_self.2 fun _ _ => rfl
  have hfound : (bindSelect (selectAll columns table) params).predicates = [] := rfl
  have hoffset : (bindSelect (selectAll columns table) params).offset = none := rfl
  have hlimit : (bindSelect (selectAll columns table) params).limit = none := rfl
  rw [run_executeSelect hscan, hfound, hall, hoffset, hlimit, selectRows, List.length_map]
  rfl

/-- Listings and single reads see the same table. Where nothing obstructs a table, as when there are
only regular files in it, its listing shows each key at most once, and a record under a key exactly
when the key is valid and not the hidden counter's and the record is read under it. The plain list
and a SELECT without conditions, order and bounds give exactly these records, or their number if
they are to be counted. -/
theorem listing_agrees_get (hs : s.Wellformed) (htable : Names.isTable table = true)
    (habove : s.tableEntries table ≠ .error .notDirectory) (hclear : s.Unobstructed table) :
    ∃ rows, s.scan table = .ok rows ∧ (rows.map (·.1)).Nodup ∧
      (∀ key r, (key, r) ∈ rows ↔ Names.isKey key = true ∧
        ¬(s.isAutoIncrement table = true ∧ key = counterKey) ∧
        s.get table key = .ok (some r)) ∧
      s.list table = .ok (rows.map (·.2)) ∧
      ∀ rules columns params, (executeSelect rules (selectAll columns table) params).run s =
        (.ok (.rows (match (selectAll columns table).countLabel with
          | some label => [[(label, .ofNat rows.length)]]
          | none => rows.map (·.2))), s) := by
  obtain ⟨rows, hscan⟩ := Shelf.exists_scan htable habove hclear
  refine ⟨rows, hscan, Shelf.nodup_keys_scan hs hscan, fun key r => Shelf.mem_scan_iff hs hscan, ?_,
    fun rules columns params => run_selectAll rules hscan columns params⟩
  rw [Shelf.list, hscan]
  rfl

/-- A numbered table with its counter, one record, and files that are none: a blank one, one that is
no JSON, one with a dot in the stem, one without a stem, and a temporary file. -/
def oddTickets : Shelf := ⟨"data", ["tickets"], 1, 0, some (.directory [("tickets", .directory
  [("last_id.json", .file (RecordFile.encode [("last_id", .ofNat 2)])),
    ("1.json", .file (RecordFile.encode [("id", .ofNat 1)])),
    ("2.json", .file " \n".toUTF8), ("3.json", .file "\x7boops".toUTF8),
    ("4.5.json", .file (RecordFile.encode [("id", .ofNat 4)])),
    (".json", .file (RecordFile.encode [("id", .ofNat 5)])),
    ("6.1.0.tmp", .file (RecordFile.encode [("id", .ofNat 6)]))])])⟩

theorem wellformed_oddTickets : oddTickets.Wellformed := by
  intro t entries h
  obtain ⟨tables, hroot, hget⟩ := Shelf.tableEntries_eq_ok_iff.1 h
  cases hroot
  by_cases ht : "tickets" = t
  · simp only [Named.get?, ht, if_true] at hget
    cases hget
    exact ⟨by decide, by decide⟩
  · simp [Named.get?, ht] at hget

theorem listing_agrees_get_tickets : oddTickets.Wellformed ∧ Names.isTable "tickets" = true ∧
    oddTickets.tableEntries "tickets" ≠ .error .notDirectory ∧ oddTickets.Unobstructed "tickets" ∧
    ∃ rows, oddTickets.scan "tickets" = .ok rows ∧ ("1", [("id", .ofNat 1)]) ∈ rows ∧
      ∀ row ∈ rows, row.1 ≠ "last_id" ∧ row.1 ≠ "4.5" := by
  have hclear : oddTickets.Unobstructed "tickets" := Shelf.unobstructed_of_files rfl
  have habove : oddTickets.tableEntries "tickets" ≠ .error .notDirectory := nofun
  have hstorable : Storable [("id", .ofNat 1)] := ⟨⟨by decide, trivial, trivial⟩, by decide⟩
  have hholds : oddTickets.Holds "tickets" "1" [("id", .ofNat 1)] :=
    ⟨by decide, by decide, hstorable, by decide, _, rfl, rfl⟩
  obtain ⟨rows, hscan, -, hrows, -⟩ :=
    listing_agrees_get wellformed_oddTickets (by decide) habove hclear
  refine ⟨wellformed_oddTickets, by decide, habove, hclear, rows, hscan, ?_, fun row hrow => ?_⟩
  · exact (hrows "1" _).2 ⟨by decide, by decide, hholds.get⟩
  · obtain ⟨hkey, hvisible, -⟩ := (hrows row.1 row.2).1 hrow
    refine ⟨fun hcounter => hvisible ⟨rfl, hcounter⟩, fun hdots => ?_⟩
    rw [hdots] at hkey
    exact absurd hkey (by decide)

end Query

end RecordShelf

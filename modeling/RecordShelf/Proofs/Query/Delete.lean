import RecordShelf.Proofs.Shelf.Remove
import RecordShelf.Query.Execute

/-!
# DELETE and SELECT

Both read the same listing and bind the same conditions, so a DELETE takes away the records that a
SELECT with its conditions shows. The DELETE works through a list of keys while the table shrinks;
what carries the induction is that the files of the keys to come are still there.
-/

namespace RecordShelf

namespace Query
open Sql
variable {rules : Rules} {s : Shelf} {table : String} {entries : Entries}
  {predicates : List Predicate}

theorem run_deleteKey (htable : Names.isTable table = true)
    (he : s.tableEntries table = .ok entries) (hsound : Sound entries) {row : String × Record}
    (hrow : Shelf.Shows entries row) (hmatch : rules.filter.matches row.2 predicates = true) :
    (deleteKey rules table predicates row.1).run s =
      (.ok true, s.setTable table (entries.erase (fileName row.1))) := by
  have hget : (ShelfM.get table row.1).run s = (.ok (some row.2), s) := by
    rw [ShelfM.get, ShelfM.run_read, Shelf.get_of_shows htable he hsound hrow]
  obtain ⟨hkey, content, hmem, -⟩ := hrow
  rw [deleteKey, run_bind_of_ok hget]
  simp only [hmatch, if_true]
  exact Shelf.run_remove hkey htable he hsound (Named.get?_of_mem hsound.distinct hmem)

/-- A file of another record is still there when a record has been removed. -/
theorem shows_erase (hsound : Sound entries) {row : String × Record} {name : String}
    (h : Shelf.Shows entries row) (hne : fileName row.1 ≠ name) :
    Shelf.Shows (entries.erase name) row := by
  obtain ⟨hkey, content, hmem, hdecode⟩ := h
  refine ⟨hkey, content, ?_, hdecode⟩
  rw [Named.erase_eq_filter hsound.distinct, List.mem_filter, decide_eq_true_eq]
  exact ⟨hmem, hne⟩

theorem run_countKeys_deleteKey (htable : Names.isTable table = true)
    (he : s.tableEntries table = .ok entries) (hsound : Sound entries)
    (found : List (String × Record)) (hfound : ∀ row ∈ found, Shelf.Shows entries row)
    (hdistinct : (found.map fun row => fileName row.1).Nodup)
    (hmatch : ∀ row ∈ found, rules.filter.matches row.2 predicates = true) :
    (countKeys (deleteKey rules table predicates) (found.map (·.1))).run s =
      (.ok found.length, s.without table (found.map fun row => fileName row.1)) := by
  induction found generalizing s entries with
  | nil =>
    rw [List.map_nil, List.map_nil, Shelf.without_nil]
    rfl
  | cons row found ih =>
    obtain ⟨hrow, hfound⟩ := List.forall_mem_cons.1 hfound
    obtain ⟨hmatchRow, hmatch⟩ := List.forall_mem_cons.1 hmatch
    rw [List.map_cons, List.nodup_cons] at hdistinct
    have hkept : ∀ other ∈ found, Shelf.Shows (entries.erase (fileName row.1)) other := by
      intro other hother
      apply shows_erase hsound (hfound other hother)
      intro hname
      exact hdistinct.1 (List.mem_map.2 ⟨other, hother, hname⟩)
    have hrest := ih (Shelf.tableEntries_setTable_self he (entries.erase (fileName row.1)))
      (hsound.erase _) hkept hdistinct.2 hmatch
    rw [Shelf.without_cons he hsound.distinct] at hrest
    rw [List.map_cons, List.map_cons, countKeys,
      run_bind_of_ok (run_deleteKey htable he hsound hrow hmatchRow), run_bind_of_ok hrest,
      List.length_cons, Nat.add_comm]
    rfl

/-! ## Whole statements -/

theorem run_executeSelect {select : Select} {params : Params} {rows : List (String × Record)}
    (h : s.scan select.table = .ok rows) :
    (executeSelect rules select params).run s =
      (.ok (.rows (selectRows select (bindSelect select params).offset
        (bindSelect select params).limit
        ((matching rules (bindSelect select params).predicates rows).map (·.2)))), s) := by
  have hscan : (ShelfM.scan select.table).run s = (.ok rows, s) := by
    rw [ShelfM.scan, ShelfM.run_read, h]
  rw [executeSelect, run_bind_of_ok hscan]
  rfl

theorem run_executeSelect_error {select : Select} {params : Params} {e : Error}
    (h : s.scan select.table = .error e) :
    (executeSelect rules select params).run s = (.error e, s) := by
  have hscan : (ShelfM.scan select.table).run s = (.error e, s) := by
    rw [ShelfM.scan, ShelfM.run_read, h]
  rw [executeSelect, run_bind_of_error hscan]

theorem run_matchingKeys {rows : List (String × Record)} (h : s.scan table = .ok rows) :
    (matchingKeys rules table predicates).run s =
      (.ok ((matching rules predicates rows).map (·.1)), s) := by
  have hscan : (ShelfM.scan table).run s = (.ok rows, s) := by
    rw [ShelfM.scan, ShelfM.run_read, h]
  rw [matchingKeys, run_bind_of_ok hscan]
  rfl

theorem run_executeDelete_error {delete : Delete} {params : Params} {e : Error}
    (h : s.scan delete.table = .error e) :
    (executeDelete rules delete params).run s = (.error e, s) := by
  have hscan : (ShelfM.scan delete.table).run s = (.error e, s) := by
    rw [ShelfM.scan, ShelfM.run_read, h]
  have hkeys : (matchingKeys rules delete.table
      (Predicate.bindAll (.start params) delete.conditions).1).run s = (.error e, s) := by
    rw [matchingKeys, run_bind_of_error hscan]
  rw [executeDelete]
  exact run_bind_of_error hkeys

theorem run_executeDelete {delete : Delete} {params : Params} (hs : s.Wellformed)
    {rows found : List (String × Record)} (h : s.scan delete.table = .ok rows)
    (hfound : matching rules (Predicate.bindAll (.start params) delete.conditions).1 rows = found) :
    (executeDelete rules delete params).run s = (.ok (.affected found.length none),
      s.without delete.table (found.map fun row => fileName row.1)) := by
  subst hfound
  obtain ⟨htable, hentries⟩ := Shelf.scan_ok h
  rw [executeDelete, run_bind_of_ok (run_matchingKeys h)]
  rcases hentries with ⟨-, rfl⟩ | ⟨entries, he, hscan⟩
  · rw [matching, List.filter_nil, List.map_nil, List.map_nil, Shelf.without_nil]
    rfl
  · have hsound := hs _ _ he
    have hsub : (matching rules (Predicate.bindAll (.start params) delete.conditions).1 rows).Sublist
        rows := List.filter_sublist
    have hcount := run_countKeys_deleteKey htable he hsound _
      (fun row hrow => Shelf.shows_of_scanEntries hscan row (hsub.subset hrow))
      (Shelf.nodup_files hsound.distinct hscan hsub)
      (fun row hrow => (List.mem_filter.1 hrow).2)
    rw [run_bind_of_ok hcount]
    rfl

/-- Listed records have files of their own, so that the matching ones are told by their files. -/
theorem mem_matching_files (rules : Rules) (predicates : List Predicate)
    {rows : List (String × Record)} (hdistinct : (rows.map fun row => fileName row.1).Nodup)
    {row : String × Record} (hrow : row ∈ rows) :
    fileName row.1 ∈ (matching rules predicates rows).map (fun row => fileName row.1) ↔
      rules.filter.matches row.2 predicates = true := by
  constructor
  · intro hmem
    obtain ⟨other, hother, hname⟩ := List.mem_map.1 hmem
    obtain ⟨hin, hmatch⟩ := List.mem_filter.1 hother
    rwa [← List.inj_on_of_nodup_map hdistinct hin hrow hname]
  · intro hmatch
    exact List.mem_map.2 ⟨row, List.mem_filter.2 ⟨hrow, hmatch⟩, rfl⟩

theorem matching_rest (rows : List (String × Record)) : matching rules predicates
    (rows.filter fun row => !rules.filter.matches row.2 predicates) = [] := by
  rw [matching, List.filter_filter, List.filter_eq_nil_iff]
  intro row _
  cases rules.filter.matches row.2 predicates <;> decide

/-- DELETE and SELECT agree on what conditions mean. Where the table cannot be listed, all of them
fail alike and change nothing. Otherwise a DELETE takes away the files of exactly the records that
the SELECT shows and nothing else, reports as many as the SELECT has rows and the COUNT counts, and
finds nothing when it is repeated. -/
theorem delete_agrees_select (rules : Rules) (hs : s.Wellformed) (table : String)
    (conditions : List Condition) (params : Params) (columns : List Column) (label : Option String)
    (hcolumns : (Select.mk columns table conditions [] none none).countLabel = none) :
    (∀ e, s.scan table = .error e →
      (executeSelect rules ⟨columns, table, conditions, [], none, none⟩ params).run s =
        (.error e, s) ∧
      (executeSelect rules ⟨[.count label], table, conditions, [], none, none⟩ params).run s =
        (.error e, s) ∧
      (executeDelete rules ⟨table, conditions⟩ params).run s = (.error e, s)) ∧
    ∀ rows, s.scan table = .ok rows →
      let predicates := (Predicate.bindAll (.start params) conditions).1
      let found := matching rules predicates rows
      let left := s.without table (found.map fun row => fileName row.1)
      (executeSelect rules ⟨columns, table, conditions, [], none, none⟩ params).run s =
        (.ok (.rows (found.map (·.2))), s) ∧
      (executeSelect rules ⟨[.count label], table, conditions, [], none, none⟩ params).run s =
        (.ok (.rows [[(label.getD "count", .ofNat found.length)]]), s) ∧
      (executeDelete rules ⟨table, conditions⟩ params).run s =
        (.ok (.affected found.length none), left) ∧
      (∀ row ∈ found, s.get table row.1 = .ok (some row.2) ∧ left.get table row.1 = .ok none) ∧
      (∀ t name, ¬(t = table ∧ name ∈ found.map fun row => fileName row.1) →
        left.readFile t name = s.readFile t name) ∧
      left.scan table = .ok (rows.filter fun row => !rules.filter.matches row.2 predicates) ∧
      (executeDelete rules ⟨table, conditions⟩ params).run left =
        (.ok (.affected 0 none), left) := by
  refine ⟨fun e he => ⟨run_executeSelect_error he, run_executeSelect_error he,
    run_executeDelete_error he⟩, fun rows hscan => ?_⟩
  intro predicates found left
  have hsub : found.Sublist rows := List.filter_sublist
  have hrest : left.scan table =
      .ok (rows.filter fun row => !rules.filter.matches row.2 predicates) := by
    rw [Shelf.scan_without hscan]
    congr 1
    obtain ⟨-, ⟨-, rfl⟩ | ⟨entries, he, hentries⟩⟩ := Shelf.scan_ok hscan
    · rfl
    · apply List.filter_congr
      intro row hrow
      have hdistinct := (Shelf.sublist_of_scanEntries hentries).nodup (hs table entries he).distinct
      have hiff := mem_matching_files rules predicates hdistinct hrow
      cases hmatch : rules.filter.matches row.2 predicates with
      | false =>
        rw [hmatch] at hiff
        exact decide_eq_true fun hmem => absurd (hiff.1 hmem) Bool.false_ne_true
      | true =>
        rw [hmatch] at hiff
        exact decide_eq_false (not_not.2 (hiff.2 rfl))
  refine ⟨?_, ?_, run_executeDelete hs hscan rfl, fun row hrow => ?_,
    fun t name => Shelf.readFile_without s table _, hrest, ?_⟩
  · rw [run_executeSelect hscan, selectRows, hcolumns]
    rfl
  · rw [run_executeSelect hscan]
    have hlength : (found.map (·.2)).length = found.length := List.length_map _
    rw [← hlength]
    rfl
  · obtain ⟨htable, ⟨-, rfl⟩ | ⟨entries, he, hentries⟩⟩ := Shelf.scan_ok hscan
    · exact absurd (hsub.subset hrow) List.not_mem_nil
    · have hshows := Shelf.shows_of_scanEntries hentries row (hsub.subset hrow)
      exact ⟨Shelf.get_of_shows htable he (hs table entries he) hshows,
        Shelf.get_without hs htable he hshows (List.mem_map.2 ⟨row, hrow, rfl⟩)⟩
  · have hagain := @run_executeDelete rules left ⟨table, conditions⟩ params (hs.without table _) _ _
      hrest (matching_rest rows)
    rw [List.map_nil, Shelf.without_nil] at hagain
    exact hagain

/-- A table with two records and an empty file. -/
def notes : Shelf := ⟨"data", [], 1, 0, some (.directory [("notes", .directory
  [("1.json", .file (RecordFile.encode [("kind", .string "old")])),
    ("2.json", .file (RecordFile.encode [("kind", .string "new")])),
    ("3.json", .file .empty)])])⟩

theorem wellformed_notes : notes.Wellformed := by
  intro t entries h
  obtain ⟨tables, hroot, hget⟩ := Shelf.tableEntries_eq_ok_iff.1 h
  cases hroot
  by_cases ht : "notes" = t
  · simp only [Named.get?, ht, if_true] at hget
    cases hget
    exact ⟨by decide, by decide⟩
  · simp [Named.get?, ht] at hget

theorem scan_notes : notes.scan "notes" =
    .ok [("1", [("kind", .string "old")]), ("2", [("kind", .string "new")])] := by
  have hold : Storable [("kind", .string "old")] := ⟨⟨by decide, trivial, trivial⟩, by decide⟩
  have hnew : Storable [("kind", .string "new")] := ⟨⟨by decide, trivial, trivial⟩, by decide⟩
  have h1 : Shelf.recordKey? false "1.json" = some "1" := by decide
  have h2 : Shelf.recordKey? false "2.json" = some "2" := by decide
  have h3 : Shelf.recordKey? false "3.json" = some "3" := by decide
  have hempty : RecordFile.decode .empty = none := rfl
  refine Shelf.scan_eq (by decide) rfl ?_
  simp only [Shelf.scanEntries_first, Shelf.isAutoIncrement, notes, List.contains_nil, h1, h2, h3, hempty,
    RecordFile.decode_encode hold, RecordFile.decode_encode hnew]
  rfl

/-- A shelf whose only record is a note. -/
def note (r : Record) : Shelf :=
  ⟨"data", [], 1, 0, some (.directory [("notes", .directory
    [("1.json", .file (RecordFile.encode r))])])⟩

theorem wellformed_note (r : Record) : (note r).Wellformed := by
  intro t entries h
  obtain ⟨tables, hroot, hget⟩ := Shelf.tableEntries_eq_ok_iff.1 h
  cases hroot
  by_cases ht : "notes" = t
  · simp only [Named.get?, ht, if_true] at hget
    cases hget
    have hfits : Node.fits "1.json" = true := by decide
    exact ⟨List.nodup_singleton _, fun name hname => by rwa [List.mem_singleton.1 hname]⟩
  · simp [Named.get?, ht] at hget

theorem scan_note {r : Record} (h : Storable r) : (note r).scan "notes" = .ok [("1", r)] := by
  have hkey : Shelf.recordKey? false "1.json" = some "1" := by decide
  refine Shelf.scan_eq (by decide) rfl ?_
  simp only [Shelf.scanEntries_first, Shelf.isAutoIncrement, note, List.contains_nil, hkey,
    RecordFile.decode_encode h]
  rfl

/-- A DELETE that matches the only note takes away its file. -/
theorem run_executeDelete_note {conditions : List Condition} {params : Params} {r : Record}
    (h : Storable r)
    (hmatch : rules.filter.matches r (Predicate.bindAll (.start params) conditions).1 = true) :
    (executeDelete rules ⟨"notes", conditions⟩ params).run (note r) =
      (.ok (.affected 1 none), (note r).without "notes" ["1.json"]) := by
  have hfile : fileName "1" = "1.json" := by decide
  have hfound : matching rules (Predicate.bindAll (.start params) conditions).1 [("1", r)] =
      [("1", r)] :=
    List.filter_eq_self.2 fun row hrow => (List.mem_singleton.1 hrow) ▸ hmatch
  have hrun := @run_executeDelete rules (note r) ⟨"notes", conditions⟩ params (wellformed_note r) _ _
    (scan_note h) hfound
  rwa [List.map_cons, List.map_nil, hfile] at hrun

theorem delete_old_notes :
    (executeSelect ⟨⟨[], []⟩, ⟨[], []⟩⟩
      ⟨[.star], "notes", [.compare "kind" .eq (.literal (.string "old"))], [], none, none⟩
      .none).run notes = (.ok (.rows [[("kind", .string "old")]]), notes) ∧
    (executeDelete ⟨⟨[], []⟩, ⟨[], []⟩⟩
      ⟨"notes", [.compare "kind" .eq (.literal (.string "old"))]⟩ .none).run notes =
      (.ok (.affected 1 none), notes.without "notes" ["1.json"]) := by
  obtain ⟨hselect, -, hdelete, -⟩ := (delete_agrees_select ⟨⟨[], []⟩, ⟨[], []⟩⟩ wellformed_notes
    "notes" [.compare "kind" .eq (.literal (.string "old"))] .none [.star] none rfl).2 _ scan_notes
  exact ⟨hselect, hdelete⟩

end Query

end RecordShelf

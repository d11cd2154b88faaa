import RecordShelf.Proofs.Query.Delete
import RecordShelf.Proofs.Query.Failures
import RecordShelf.Proofs.Shelf.Rewrite

/-!
# What an UPDATE changes

An UPDATE rewrites the files of the records that match, one after the other, and leaves every other
entry of every directory as it was. It stops early only where a temporary file cannot be made.
-/

namespace RecordShelf

namespace Query
open Sql RecordShelf.Shelf
variable {rules : Rules} {s : Shelf} {table : String} {entries : Entries}
  {predicates : List Predicate} {assignments : List (String × Json)}

/-! ## Assigning -/

section
variable (filter : FilterRules) (r : Record)

end

/-! ## One record after the other -/

theorem run_updateKey (rules : Rules) (assignments : List (String × Json))
    (htable : Names.isTable table = true)
    (he : s.tableEntries table = .ok entries) (hsound : Sound entries) {row : String × Record}
    (hrow : Shelf.Shows entries row) (hmatch : rules.filter.matches row.2 predicates = true) :
    (s.canWrite entries row.1 = true →
      (updateKey rules table predicates assignments row.1).run s = (.ok true, (s.counting 1).setTable
        table (s.putOver entries row.1 (assign rules.filter row.2 assignments)))) ∧
    (s.canWrite entries row.1 = false → ∃ path cause,
      (updateKey rules table predicates assignments row.1).run s =
        (.error (.io .fileWrite path cause), s.counting 1)) := by
  have hget : (ShelfM.get table row.1).run s = (.ok (some row.2), s) := by
    rw [ShelfM.get, ShelfM.run_read, Shelf.get_of_shows htable he hsound hrow]
  obtain ⟨hdone, hblocked⟩ := ShelfM.run_put_over hrow.1 htable he
    (hrow.not_directory hsound.distinct) (assign rules.filter row.2 assignments)
  rw [updateKey, run_bind_of_ok hget]
  simp only [hmatch, if_true]
  refine ⟨fun hwrite => ?_, fun hwrite => ?_⟩
  · rw [run_bind_of_ok (hdone hwrite)]
    rfl
  · obtain ⟨path, cause, hput⟩ := hblocked hwrite
    exact ⟨path, cause, run_bind_of_error hput⟩

theorem sound_putOver (hsound : Sound entries) {row : String × Record}
    (hrow : Shelf.Shows entries row) (r : Record) : Sound (s.putOver entries row.1 r) :=
  (hsound.erase _).insert (hsound.fits _ hrow.mem_names) _

/-- Writing a record over makes no other record more or less writable. -/
theorem writable_putOver (hsound : Sound entries) {row : String × Record}
    (hrow : Shelf.Shows entries row) (hwrite : s.canWrite entries row.1 = true) (r : Record)
    (found : List (String × Record)) :
    ((s.counting 1).setTable table (s.putOver entries row.1 r)).writable
        (s.putOver entries row.1 r) found = (s.counting 1).writable entries found :=
  writable_congr
    (isDirectory_putOver (hrow.not_directory hsound.distinct) hsound.distinct hwrite r)
    (s.counting 1) (s.putOver entries row.1 r) found

/-- A file of another record is still there when a record has been written over. -/
theorem shows_putOver (hsound : Sound entries) {row : String × Record} {key : String} {r : Record}
    (h : Shelf.Shows entries row) (hne : fileName row.1 ≠ fileName key) :
    Shelf.Shows (s.putOver entries key r) row := by
  obtain ⟨hkey, content, hmem, hdecode⟩ := h
  refine ⟨hkey, content, Named.mem_of_get? ?_, hdecode⟩
  rw [putOver, Named.get?_insert_of_ne _ _ hne,
    Named.get?_erase_of_ne _ (fileName_ne_temporaryName s row.1 key)]
  exact Named.get?_of_mem hsound.distinct hmem

/-- The shelf when some listed records of a table have been written over, and more temporary files
have been named. -/
def overwritten (rules : Rules) (assignments : List (String × Json)) (s : Shelf) (table : String)
    (entries : Entries) (done : List (String × Record)) (named : ℕ) : Shelf :=
  (s.counting named).setTable table
    (s.rewritten (fun r => assign rules.filter r assignments) done entries)

theorem overwritten_nil (he : s.tableEntries table = .ok entries) (named : ℕ) :
    overwritten rules assignments s table entries [] named = s.counting named := by
  rw [overwritten, rewritten_nil]
  exact setTable_self (s := s.counting named) he

/-- What is left of a run from the second record on is what is left of the whole run. -/
theorem overwritten_cons (he : s.tableEntries table = .ok entries) (hsound : Sound entries)
    {row : String × Record} (hrow : Shelf.Shows entries row) {done : List (String × Record)}
    (hdistinct : fileName row.1 ∉ done.map fun row => fileName row.1) (named : ℕ) :
    overwritten rules assignments ((s.counting 1).setTable table (s.putOver entries row.1
        (assign rules.filter row.2 assignments))) table
      (s.putOver entries row.1 (assign rules.filter row.2 assignments)) done named =
      overwritten rules assignments s table entries (row :: done) (named + 1) := by
  have hthere : ((s.counting 1).counting named).tableEntries table = .ok entries := he
  rw [overwritten, overwritten, counting_setTable, setTable_setTable hthere, rewritten_setTable,
    counting_counting, Nat.add_comm named 1,
    rewritten_cons hsound.distinct hrow.mem_names hdistinct]

/-- All records up to the first that cannot be written are written over, and there the run fails. -/
theorem run_countKeys_updateKey (rules : Rules) (assignments : List (String × Json))
    (htable : Names.isTable table = true)
    (he : s.tableEntries table = .ok entries) (hsound : Sound entries)
    (found : List (String × Record)) (hfound : ∀ row ∈ found, Shelf.Shows entries row)
    (hdistinct : (found.map fun row => fileName row.1).Nodup)
    (hmatch : ∀ row ∈ found, rules.filter.matches row.2 predicates = true) :
    (s.writable entries found = found →
      (countKeys (updateKey rules table predicates assignments) (found.map (·.1))).run s =
        (.ok found.length, overwritten rules assignments s table entries
          (s.writable entries found) found.length)) ∧
    (s.writable entries found ≠ found → ∃ path cause,
      (countKeys (updateKey rules table predicates assignments) (found.map (·.1))).run s =
        (.error (.io .fileWrite path cause), overwritten rules assignments s table entries
          (s.writable entries found) ((s.writable entries found).length + 1))) := by
  induction found generalizing s entries with
  | nil =>
    rw [writable, List.length_nil, overwritten_nil he]
    exact ⟨fun _ => rfl, fun hne => absurd rfl hne⟩
  | cons row found ih =>
    obtain ⟨hrow, hfound⟩ := List.forall_mem_cons.1 hfound
    obtain ⟨hmatchRow, hmatch⟩ := List.forall_mem_cons.1 hmatch
    rw [List.map_cons, List.nodup_cons] at hdistinct
    obtain ⟨hdone, hblocked⟩ := run_updateKey rules assignments htable he hsound hrow hmatchRow
    rw [List.map_cons, countKeys]
    cases hwrite : s.canWrite entries row.1 with
    | false =>
      obtain ⟨path, cause, hrun⟩ := hblocked hwrite
      rw [writable, hwrite, if_neg Bool.false_ne_true, overwritten_nil he,
        overwritten_nil he]
      exact ⟨fun hempty => absurd hempty (List.cons_ne_nil _ _).symm,
        fun _ => ⟨path, cause, run_bind_of_error hrun⟩⟩
    | true =>
      -- The rest of the run starts from the shelf with this record written over.
      let written := s.putOver entries row.1 (assign rules.filter row.2 assignments)
      let next := (s.counting 1).setTable table written
      have hnext : next.tableEntries table = .ok written :=
        tableEntries_setTable_self (s := s.counting 1) he written
      have hfound' : ∀ other ∈ found, Shelf.Shows written other := fun other hother =>
        shows_putOver hsound (hfound other hother) fun hname =>
          hdistinct.1 (List.mem_map.2 ⟨other, hother, hname⟩)
      have hwritable : next.writable written found = (s.counting 1).writable entries found :=
        writable_putOver hsound hrow hwrite _ found
      have hleft : ∀ done, done <+: found → ∀ named,
          overwritten rules assignments next table written done named =
            overwritten rules assignments s table entries (row :: done) (named + 1) :=
        fun done hstarts named => overwritten_cons he hsound hrow
          (fun hin => hdistinct.1 ((hstarts.sublist.map _).subset hin)) named
      obtain ⟨hall, hsome⟩ := ih hnext (sound_putOver hsound hrow _) hfound' hdistinct.2 hmatch
      rw [hwritable] at hall hsome
      rw [writable, if_pos hwrite, run_bind_of_ok (hdone hwrite)]
      constructor
      · intro heq
        have hrest := hall (List.cons.inj heq).2
        rw [hleft _ (writable_isPrefix _ _ _)] at hrest
        rw [run_bind_of_ok hrest, List.length_cons, Nat.add_comm]
        rfl
      · intro hne
        obtain ⟨path, cause, hrest⟩ := hsome fun heq => hne (congrArg _ heq)
        rw [hleft _ (writable_isPrefix _ _ _)] at hrest
        exact ⟨path, cause, run_bind_of_error hrest⟩

/-! ## Whole statements -/

/-- The conditions of an UPDATE with their operands. -/
def updatePredicates (u : Update) (params : Params) : List Predicate :=
  (Predicate.bindAll (.startingAt params (bindAssignments u params).2) u.conditions).1

section
variable {u : Update} {params : Params}

theorem run_executeUpdate_of_not_isTable (htable : Names.isTable u.table = false) :
    ∃ fault, (executeUpdate rules u params).run s = (.error (.name fault), s) := by
  cases hcheck : Names.check .table u.table with
  | ok _ =>
    have hchecked : checkTable u.table = .ok () := by rw [checkTable, hcheck]; rfl
    rw [isTable_of_checkTable hchecked] at htable
    cases htable
  | error fault =>
    have hmade : (ShelfM.read (·.tableExists u.table)).run s = (.error (.name fault), s) := by
      rw [ShelfM.run_read, tableExists, checkTable, hcheck]
      rfl
    exact ⟨fault, run_bind_of_error hmade⟩

theorem run_tableExists (htable : Names.isTable table = true) (s : Shelf) :
    (ShelfM.read (·.tableExists table)).run s =
      (.ok (s.tableEntries table).toOption.isSome, s) := by
  rw [ShelfM.run_read, tableExists, checkTable_eq htable]
  rfl

/-- An UPDATE of a table that is not there makes none. -/
theorem run_executeUpdate_of_missing (htable : Names.isTable u.table = true) {cause : IoCause}
    (h : s.tableEntries u.table = .error cause) :
    (executeUpdate rules u params).run s = (.ok (.affected 0 none), s) := by
  have hmade := run_tableExists htable s
  rw [h] at hmade
  exact run_bind_of_ok hmade

theorem run_executeUpdate_eq (htable : Names.isTable u.table = true)
    (h : s.tableEntries u.table = .ok entries) :
    (executeUpdate rules u params).run s = (do
      let keys ← matchingKeys rules u.table (updatePredicates u params)
      return .affected (← countKeys (updateKey rules u.table (updatePredicates u params)
        (bindAssignments u params).1) keys) none : ShelfM Result).run s := by
  have hmade := run_tableExists htable s
  rw [h] at hmade
  exact run_bind_of_ok hmade

theorem run_executeUpdate_error {e : Error} (htable : Names.isTable u.table = true)
    (he : s.tableEntries u.table = .ok entries) (h : s.scan u.table = .error e) :
    (executeUpdate rules u params).run s = (.error e, s) := by
  have hscan : (ShelfM.scan u.table).run s = (.error e, s) := by
    rw [ShelfM.scan, ShelfM.run_read, h]
  rw [run_executeUpdate_eq htable he]
  exact run_bind_of_error (run_bind_of_error hscan)

theorem run_executeUpdate (hs : s.Wellformed) (he : s.tableEntries u.table = .ok entries)
    {rows found : List (String × Record)} (h : s.scan u.table = .ok rows)
    (hfound : matching rules (updatePredicates u params) rows = found) :
    (s.writable entries found = found →
      (executeUpdate rules u params).run s = (.ok (.affected found.length none),
        overwritten rules (bindAssignments u params).1 s u.table entries
          (s.writable entries found) found.length)) ∧
    (s.writable entries found ≠ found → ∃ path cause,
      (executeUpdate rules u params).run s = (.error (.io .fileWrite path cause),
        overwritten rules (bindAssignments u params).1 s u.table entries
          (s.writable entries found) ((s.writable entries found).length + 1))) := by
  subst hfound
  obtain ⟨htable, hscan⟩ := scan_there h he
  have hsub : (matching rules (updatePredicates u params) rows).Sublist rows := List.filter_sublist
  obtain ⟨hall, hsome⟩ := run_countKeys_updateKey rules (bindAssignments u params).1 htable he
    (hs _ _ he) _
    (fun row hrow => shows_of_scanEntries hscan row (hsub.subset hrow))
    (nodup_files (hs _ _ he).distinct hscan hsub)
    (fun row hrow => (List.mem_filter.1 hrow).2)
  rw [run_executeUpdate_eq htable he, run_bind_of_ok (run_matchingKeys h)]
  refine ⟨fun hdone => ?_, fun hne => ?_⟩
  · rw [run_bind_of_ok (hall hdone)]
    rfl
  · obtain ⟨path, cause, hrun⟩ := hsome hne
    exact ⟨path, cause, run_bind_of_error hrun⟩

/-- A record that was written over is read back, unless it is nested too deeply. -/
theorem get_overwritten (hs : s.Wellformed) (htable : Names.isTable table = true)
    (he : s.tableEntries table = .ok entries) {done : List (String × Record)}
    (hdistinct : (done.map fun row => fileName row.1).Nodup)
    (hdone : ∀ row ∈ done, Shelf.Shows entries row) {row : String × Record} (hrow : row ∈ done)
    (hstorable : Storable (assign rules.filter row.2 assignments)) (named : ℕ) :
    (overwritten rules assignments s table entries done named).get table row.1 =
      .ok (some (assign rules.filter row.2 assignments)) := by
  have hshows := hdone row hrow
  have hthere : fileName row.1 ∈ entries.names := hshows.mem_names
  have hentries := tableEntries_setTable_self (s := s.counting named) he
    (s.rewritten (fun r => assign rules.filter r assignments) done entries)
  have hread := readFile_of_ok hentries (fileName row.1)
  rw [if_pos ((hs _ _ he).fits _ hthere), get?_rewritten_of_mem hrow hdistinct hthere] at hread
  rw [overwritten, get_of_readFile_ok hshows.1 htable hread, RecordFile.decode_encode hstorable]

end

/-- A key of some ones. -/
def onesKey (n : ℕ) : String := String.ofList (List.replicate n '1')

theorem utf8ByteSize_onesKey (n : ℕ) : (onesKey n).utf8ByteSize = n := by
  induction n with
  | zero => rfl
  | succ n ih =>
    have hone : ('1' : Char).utf8Size = 1 := by decide
    rw [onesKey] at ih ⊢
    rw [List.replicate_succ, String.ofList_cons, String.utf8ByteSize_append,
      String.utf8ByteSize_singleton, ih, hone, Nat.add_comm]

theorem isKey_onesKey {n : ℕ} (hpos : 0 < n) (hmax : n ≤ Names.maxLength) :
    Names.isKey (onesKey n) = true := by
  refine Names.isKey_of_digits ?_ (fun c hc => ?_) ((utf8ByteSize_onesKey n).trans_le hmax)
  · rw [Ne, List.replicate_eq_nil_iff]
    omega
  · rw [List.eq_of_mem_replicate hc]
    rfl

/-- A key that is valid and has a file, though its temporary file would have a name of 258 bytes. -/
def wideKey : String := onesKey 250

theorem fits_fileName_wideKey : Node.fits (fileName wideKey) = true := by
  have hjson : recordSuffix.utf8ByteSize = 5 := by decide
  have hmax : Node.maxName = 255 := rfl
  rw [Node.fits, fileName, String.utf8ByteSize_append, wideKey, utf8ByteSize_onesKey, hjson]
  exact decide_eq_true (by omega)

theorem not_fits_temporaryName_wideKey (s : Shelf) :
    Node.fits (s.temporaryName wideKey) = false := by
  have hdot : ".".utf8ByteSize = 1 := by decide
  have htmp : ".tmp".utf8ByteSize = 4 := by decide
  have hmax : Node.maxName = 255 := rfl
  simp only [Node.fits, temporaryName, String.utf8ByteSize_append, wideKey,
    utf8ByteSize_onesKey, hdot, htmp]
  exact decide_eq_false (by omega)

end Query

end RecordShelf

import RecordShelf.Proofs.Query.RowOrder
import RecordShelf.Proofs.Query.UpdateFrame
import RecordShelf.Proofs.Shelf.Relisting

/-!
# Statements on two listings of a table

The order in which a directory gives its entries decides nothing about a count, about the rows of a
SELECT as a whole, about rows that their ORDER BY tells apart, and about a DELETE. For an UPDATE it
decides which record has which temporary file, and so which records it reaches if one of these files
cannot be made.
-/

namespace RecordShelf.Query
open Sql RecordShelf.Shelf
variable {rules : Rules} {s s' : Shelf} {table : String} {rows rows' : List (String × Record)}

theorem matching_perm (rules : Rules) (predicates : List Predicate) (h : rows.Perm rows') :
    (matching rules predicates rows).Perm (matching rules predicates rows') :=
  h.filter _

/-! ## SELECT -/

/-- The rows that match a SELECT. -/
def foundRows (rules : Rules) (select : Select) (params : Params) (rows : List (String × Record)) :
    List Record :=
  (matching rules (bindSelect select params).predicates rows).map (·.2)

theorem foundRows_perm (select : Select) (params : Params) (h : rows.Perm rows') :
    (foundRows rules select params rows).Perm (foundRows rules select params rows') :=
  (matching_perm rules _ h).map _

/-- What a SELECT gives on two listings of its table, with the rows that match. -/
structure SelectAgrees (rules : Rules) (select : Select) (params : Params) (s s' : Shelf)
    (found out out' : List Record) : Prop where
  run : (executeSelect rules select params).run s = (.ok (.rows out), s)
  run' : (executeSelect rules select params).run s' = (.ok (.rows out'), s')
  count : select.countLabel.isSome = true → out = out'
  unpaged : select.limit = none → select.offset = none → out.Perm out'
  strict : Strict select.order found → out = out'

theorem bindSelect_unpaged {select : Select} (hlimit : select.limit = none)
    (hoffset : select.offset = none) (params : Params) :
    (bindSelect select params).offset = none ∧ (bindSelect select params).limit = none := by
  rw [bindSelect, hlimit, hoffset]
  exact ⟨rfl, rfl⟩

theorem selectAgrees (select : Select) (params : Params) (hscan : s.scan select.table = .ok rows)
    (hscan' : s'.scan select.table = .ok rows') (h : rows.Perm rows') :
    ∃ out out', SelectAgrees rules select params s s' (foundRows rules select params rows) out out' := by
  obtain ⟨hcount, hperm, hstrict⟩ := selectRows_perm select (foundRows_perm select params h)
  refine ⟨_, _, run_executeSelect hscan, run_executeSelect hscan', fun hlabel => hcount hlabel _ _,
    fun hlimit hoffset => ?_, fun hrows => hstrict hrows _ _⟩
  obtain ⟨hnoOffset, hnoLimit⟩ := bindSelect_unpaged hlimit hoffset params
  rw [hnoOffset, hnoLimit]
  exact hperm

/-! ## Pages -/

/-- A SELECT gives the `k`-th page of `n` rows of another one: its limit is `n`, its offset `n * k`, and
the rest is as there. -/
structure PageOf (full : Select) (fullParams : Params) (n k : ℕ) (part : Select)
    (params : Params) : Prop where
  table : part.table = full.table
  order : part.order = full.order
  rows : part.countLabel = none
  predicates : (bindSelect part params).predicates = (bindSelect full fullParams).predicates
  limit : (bindSelect part params).limit.bind asCount = some n
  offset : (bindSelect part params).offset.bind asCount = some (n * k)

theorem run_page {full part : Select} {fullParams params : Params} {n k : ℕ}
    (h : PageOf full fullParams n k part params) (hscan : s.scan full.table = .ok rows) :
    (executeSelect rules part params).run s = (.ok (.rows
      (((sortRows full.order (foundRows rules full fullParams rows)).drop (n * k)).take n)), s) := by
  have hscan' : s.scan part.table = .ok rows := by rw [h.table, hscan]
  rw [run_executeSelect hscan', selectRows_of_no_count h.rows, h.predicates, h.order, page, h.limit,
    h.offset]
  rfl

theorem asCount_int {n : ℕ} (h : n < 2 ^ 63) :
    asCount (literalValue (.int (Int64.ofNat n))) = some n := by
  have hint : (Int64.ofNat n).toInt = n := Int64.toInt_ofNat_of_lt h
  rw [literalValue, Json.ofInt64, asCount, JsonNumber.ofInt64, JsonNumber.toNat?, hint,
    if_pos (Int.natCast_nonneg n), Int.toNat_natCast]

/-- A SELECT with `LIMIT n OFFSET n * k` behind it gives a page. -/
def withPage (full : Select) (n k : ℕ) : Select :=
  { full with
    limit := some ⟨none, .literal (.int (Int64.ofNat n))⟩
    offset := some (.literal (.int (Int64.ofNat (n * k)))) }

theorem pageOf_withPage {full : Select} (hcount : full.countLabel = none) (params : Params) {n k : ℕ}
    (hn : n < 2 ^ 63) (hk : n * k < 2 ^ 63) : PageOf full params n k (withPage full n k) params where
  table := rfl
  order := rfl
  rows := hcount
  predicates := rfl
  limit := asCount_int hn
  offset := asCount_int hk

theorem run_unpaged {full : Select} (hcount : full.countLabel = none) (hlimit : full.limit = none)
    (hoffset : full.offset = none) (params : Params) (hscan : s.scan full.table = .ok rows) :
    (executeSelect rules full params).run s =
      (.ok (.rows (sortRows full.order (foundRows rules full params rows))), s) := by
  obtain ⟨hnoOffset, hnoLimit⟩ := bindSelect_unpaged hlimit hoffset params
  rw [run_executeSelect hscan, hnoOffset, hnoLimit, selectRows_of_no_count hcount]
  rfl

/-- Pages that are taken from listings in any order are together the rows of the whole SELECT. -/
theorem run_pages {full : Select} {fullParams : Params} {n m : ℕ} {parts : ℕ → Select}
    {params : ℕ → Params} {listings : ℕ → Shelf} (hscan : s.scan full.table = .ok rows)
    (hstrict : Strict full.order (foundRows rules full fullParams rows))
    (hparts : ∀ k < m, PageOf full fullParams n k (parts k) (params k))
    (hlistings : ∀ k < m, Relists full.table s (listings k)) :
    ∃ pages : ℕ → List Record,
      (∀ k < m, (executeSelect rules (parts k) (params k)).run (listings k) =
        (.ok (.rows (pages k)), listings k)) ∧
      (List.range m).flatMap pages =
        (sortRows full.order (foundRows rules full fullParams rows)).take (n * m) := by
  refine ⟨fun k => ((sortRows full.order (foundRows rules full fullParams rows)).drop (n * k)).take n,
    fun k hk => ?_, flatMap_pages _ n m⟩
  obtain ⟨rows', hscan', hperm⟩ := (hlistings k hk).scan_ok hscan
  rw [run_page (hparts k hk) hscan', hstrict.sortRows_eq (foundRows_perm full fullParams hperm)]

/-! ## DELETE -/

/-- A DELETE reports as many records and leaves the same entries. -/
theorem run_delete_relisted (hs : s.Wellformed) {delete : Delete} (h : Relists delete.table s s')
    (params : Params) (hscan : s.scan delete.table = .ok rows) :
    ∃ n left left', (executeDelete rules delete params).run s = (.ok (.affected n none), left) ∧
      (executeDelete rules delete params).run s' = (.ok (.affected n none), left') ∧
      Relists delete.table left left' := by
  obtain ⟨rows', hscan', hperm⟩ := h.scan_ok hscan
  have hfound := matching_perm rules (Predicate.bindAll (.start params) delete.conditions).1 hperm
  have hrun := @run_executeDelete rules s delete params hs rows _ hscan rfl
  have hrun' := @run_executeDelete rules s' delete params (h.wellformed hs) rows' _ hscan' rfl
  rw [← hfound.length_eq] at hrun'
  exact ⟨_, _, _, hrun, hrun', h.without (hfound.map _)⟩

/-! ## UPDATE -/

section
variable {u : Update} {params : Params} {entries there : Entries} {found found' : List (String × Record)}

/-- What becomes of a record in an UPDATE. -/
def assigned (rules : Rules) (u : Update) (params : Params) (r : Record) : Record :=
  assign rules.filter r (bindAssignments u params).1

/-- An UPDATE reports the records that match if it could write over all of them, and fails otherwise. -/
structure Reports (rules : Rules) (u : Update) (params : Params) (s : Shelf)
    (found done : List (String × Record)) : Prop where
  succeeds : done = found →
    ((executeUpdate rules u params).run s).1 = .ok (.affected found.length none)
  fails : done ≠ found → ∃ e, ((executeUpdate rules u params).run s).1 = .error e

/-- A run on a listing, told by the entries in another order: the table is rewritten for the records
that it has reached. -/
theorem run_update_listing (hs : s.Wellformed) (he : s.tableEntries u.table = .ok entries)
    (hperm : entries.Perm there) (hscan : (s.setTable u.table there).scan u.table = .ok rows)
    (hfound : matching rules (updatePredicates u params) rows = found) :
    let run := (executeUpdate rules u params).run (s.setTable u.table there)
    let after := s.rewritten (assigned rules u params) (s.writable entries found) there
    Reports rules u params (s.setTable u.table there) found (s.writable entries found) ∧
      (s.writable entries found = found →
        run.2 = (s.counting found.length).setTable u.table after) ∧
      ∃ n, run.2 = (s.counting n).setTable u.table after := by
  have hrelists : Relists u.table s (s.setTable u.table there) := ⟨entries, there, he, hperm, rfl⟩
  have hthere : (s.setTable u.table there).tableEntries u.table = .ok there :=
    tableEntries_setTable_self he there
  have hover (done : List (String × Record)) (n : ℕ) :
      overwritten rules (bindAssignments u params).1 (s.setTable u.table there) u.table there done n =
        (s.counting n).setTable u.table (s.rewritten (assigned rules u params) done there) := by
    rw [overwritten, counting_setTable, setTable_setTable (s := s.counting n) he, rewritten_setTable]
    rfl
  obtain ⟨hall, hsome⟩ := @run_executeUpdate rules (s.setTable u.table there) there u params
    (hrelists.wellformed hs) hthere rows found hscan hfound
  rw [writable_perm (hs _ _ he) hperm, hover] at hall
  rw [writable_perm (hs _ _ he) hperm, hover] at hsome
  refine ⟨⟨fun hdone => congrArg Prod.fst (hall hdone), fun hne => ?_⟩,
    fun hdone => congrArg Prod.snd (hall hdone), ?_⟩
  · obtain ⟨path, cause, hrun⟩ := hsome hne
    exact ⟨_, congrArg Prod.fst hrun⟩
  · by_cases hdone : s.writable entries found = found
    · exact ⟨_, congrArg Prod.snd (hall hdone)⟩
    · obtain ⟨path, cause, hrun⟩ := hsome hdone
      exact ⟨_, congrArg Prod.snd hrun⟩

/-- The names of all temporary files that an UPDATE can make are free and not too long. -/
def FreshNames (s : Shelf) (entries : Entries) (found : List (String × Record)) : Prop :=
  ∀ row ∈ found, ∀ i < found.length, Node.fits ((s.counting i).temporaryName row.1) = true ∧
    (s.counting i).temporaryName row.1 ∉ entries.names

/-- An UPDATE on two listings of its table. In each it writes over the matching records up to the first
whose temporary file cannot be made. Where it reaches all of them in both, the same entries are left,
unless a leftover file has the name of a temporary file in one of them only; and where it does not, the
shelves differ only in the records that it reached in one of them. -/
structure UpdateAgrees (rules : Rules) (u : Update) (params : Params) (s s' : Shelf)
    (entries : Entries) (found found' : List (String × Record)) : Prop where
  rows : found.Perm found'
  run : Reports rules u params s found (s.writable entries found)
  run' : Reports rules u params s' found' (s.writable entries found')
  left : s.writable entries found = found → s.writable entries found' = found' →
    (Relists u.table ((executeUpdate rules u params).run s).2
        ((executeUpdate rules u params).run s').2 ↔
      ∀ name ∈ entries.names, name ∈ s.temporaryNames (found.map (·.1)) ↔
        name ∈ s.temporaryNames (found'.map (·.1)))
  fresh : FreshNames s entries found →
    s.writable entries found = found ∧ s.writable entries found' = found' ∧
      Relists u.table ((executeUpdate rules u params).run s).2
        ((executeUpdate rules u params).run s').2
  apart : ∀ t name, ((executeUpdate rules u params).run s).2.readFile t name ≠
      ((executeUpdate rules u params).run s').2.readFile t name →
    t = u.table ∧ (name ∈ s.temporaryNames ((s.writable entries found).map (·.1)) ∨
      name ∈ s.temporaryNames ((s.writable entries found').map (·.1)) ∨
      ∃ row ∈ found, fileName row.1 = name ∧
        ¬(row ∈ s.writable entries found ↔ row ∈ s.writable entries found'))

theorem mem_temporaryNames {keys : List String} {name : String}
    (h : name ∈ s.temporaryNames keys) :
    ∃ key ∈ keys, ∃ i < keys.length, name = (s.counting i).temporaryName key := by
  induction keys generalizing s with
  | nil => exact absurd h List.not_mem_nil
  | cons key keys ih =>
    rw [temporaryNames, List.mem_cons] at h
    rcases h with rfl | h
    · exact ⟨key, List.mem_cons_self, 0, Nat.succ_pos _, rfl⟩
    · obtain ⟨other, hother, i, hi, rfl⟩ := ih h
      refine ⟨other, List.mem_cons_of_mem _ hother, i + 1, Nat.succ_lt_succ hi, ?_⟩
      rw [counting_counting, Nat.add_comm]

theorem FreshNames.perm (h : FreshNames s entries found) (hfound : found.Perm found') :
    FreshNames s entries found' := by
  intro row hrow i hi
  rw [← hfound.length_eq] at hi
  exact h row (hfound.mem_iff.2 hrow) i hi

theorem FreshNames.writable (h : FreshNames s entries found) :
    s.writable entries found = found := by
  refine writable_eq_self_iff.2 fun i row hrow => ?_
  obtain ⟨hi, rfl⟩ := List.getElem?_eq_some_iff.1 hrow
  obtain ⟨hfits, hfree⟩ := h _ (List.getElem_mem hi) i hi
  refine canWrite_iff.2 ⟨hfits, fun es hdirectory => ?_⟩
  rw [Named.get?_eq_none_iff.2 hfree] at hdirectory
  exact nomatch hdirectory

theorem FreshNames.not_mem (h : FreshNames s entries found) {name : String}
    (hname : name ∈ entries.names) : name ∉ s.temporaryNames (found.map (·.1)) := by
  intro hmem
  obtain ⟨key, hkey, i, hi, rfl⟩ := mem_temporaryNames hmem
  obtain ⟨row, hrow, rfl⟩ := List.mem_map.1 hkey
  rw [List.length_map] at hi
  exact (h row hrow i hi).2 hname

/-- A name that no temporary file has stands for the same in both runs, if these have written over the
same record in its file or none. -/
theorem get?_rewritten_perm {f : Record → Record} (hsound : Sound entries)
    (hperm : entries.Perm there) {done done' : List (String × Record)}
    (hdistinct : (found.map fun row => fileName row.1).Nodup)
    (hthere : ∀ row ∈ found, fileName row.1 ∈ entries.names)
    (hdone : done.Subperm found) (hdone' : done'.Subperm found) {name : String}
    (htemporary : name ∉ s.temporaryNames (done.map (·.1)))
    (htemporary' : name ∉ s.temporaryNames (done'.map (·.1)))
    (hsame : ∀ row ∈ found, fileName row.1 = name → (row ∈ done ↔ row ∈ done')) :
    (s.rewritten f done entries).get? name = (s.rewritten f done' there).get? name := by
  have hnodup {part : List (String × Record)} (hpart : part.Subperm found) :
      (part.map fun row => fileName row.1).Nodup := by
    obtain ⟨l, hl, hsub⟩ := hpart
    exact (hl.map _).nodup ((hsub.map _).nodup hdistinct)
  by_cases hname : ∃ row ∈ done, fileName row.1 = name
  · obtain ⟨row, hrow, rfl⟩ := hname
    have hfound := hdone.subset hrow
    have hrow' : row ∈ done' := (hsame row hfound rfl).1 hrow
    have hfile : fileName row.1 ∈ Named.names there :=
      (hperm.map Prod.fst).mem_iff.1 (hthere row hfound)
    rw [get?_rewritten_of_mem hrow (hnodup hdone) (hthere row hfound),
      get?_rewritten_of_mem hrow' (hnodup hdone') hfile]
  · have hnot : name ∉ done.map fun row => fileName row.1 := fun hmem =>
      hname (List.mem_map.1 hmem)
    have hnot' : name ∉ done'.map fun row => fileName row.1 := fun hmem => by
      obtain ⟨row, hrow, heq⟩ := List.mem_map.1 hmem
      exact hname ⟨row, (hsame row (hdone'.subset hrow) heq).2 hrow, heq⟩
    rw [get?_rewritten_of_not_mem hnot htemporary, get?_rewritten_of_not_mem hnot' htemporary',
      Named.get?_perm hsound.distinct hperm]

theorem readFile_setTable_congr (he : s.tableEntries table = .ok entries) {old new : Entries}
    {name : String} (h : old.get? name = Named.get? new name) (m n : ℕ) :
    ((s.counting m).setTable table old).readFile table name =
      ((s.counting n).setTable table new).readFile table name := by
  rw [readFile_of_ok (tableEntries_setTable_self (s := s.counting m) he old),
    readFile_of_ok (tableEntries_setTable_self (s := s.counting n) he new), h]

theorem readFile_setTable_of_ne {old new : Entries} {t name : String} (ht : t ≠ table) (m n : ℕ) :
    ((s.counting m).setTable table old).readFile t name =
      ((s.counting n).setTable table new).readFile t name := by
  rw [readFile, readFile, tableEntries_setTable_of_ne ht, tableEntries_setTable_of_ne ht]
  rfl

/-- Two runs that rewrite the same table for some of the same records leave the same files, but for the
records of one of them only and for temporary files. -/
theorem readFile_rewritten {f : Record → Record} (he : s.tableEntries table = .ok entries)
    (hsound : Sound entries) (hperm : entries.Perm there) {done done' : List (String × Record)}
    (hdistinct : (found.map fun row => fileName row.1).Nodup)
    (hthere : ∀ row ∈ found, fileName row.1 ∈ entries.names)
    (hdone : done.Subperm found) (hdone' : done'.Subperm found) {m n : ℕ} {t name : String}
    (hne : ((s.counting m).setTable table (s.rewritten f done entries)).readFile t name ≠
      ((s.counting n).setTable table (s.rewritten f done' there)).readFile t name) :
    t = table ∧ (name ∈ s.temporaryNames (done.map (·.1)) ∨
      name ∈ s.temporaryNames (done'.map (·.1)) ∨
      ∃ row ∈ found, fileName row.1 = name ∧ ¬(row ∈ done ↔ row ∈ done')) := by
  by_cases ht : t = table
  · subst ht
    refine ⟨rfl, ?_⟩
    by_contra hnone
    rw [not_or, not_or] at hnone
    obtain ⟨htemporary, htemporary', hsame⟩ := hnone
    refine hne (readFile_setTable_congr he ?_ m n)
    refine get?_rewritten_perm hsound hperm hdistinct hthere hdone hdone' htemporary htemporary' ?_
    intro row hrow hname
    by_contra hiff
    exact hsame ⟨row, hrow, hname, hiff⟩
  · exact absurd (readFile_setTable_of_ne ht m n) hne

theorem updateAgrees (hs : s.Wellformed) (he : s.tableEntries u.table = .ok entries)
    (hperm : entries.Perm there) (hscan : s.scan u.table = .ok rows)
    (hscan' : (s.setTable u.table there).scan u.table = .ok rows') (hrows : rows.Perm rows')
    (hmatching : matching rules (updatePredicates u params) rows = found)
    (hmatching' : matching rules (updatePredicates u params) rows' = found') :
    UpdateAgrees rules u params s (s.setTable u.table there) entries found found' := by
  have hfound : found.Perm found' :=
    hmatching ▸ hmatching' ▸ matching_perm rules (updatePredicates u params) hrows
  obtain ⟨hreports, hdone, m, hm⟩ := run_update_listing hs he (.refl entries)
    ((setTable_self he).symm ▸ hscan) hmatching
  obtain ⟨hreports', hdone', n, hn⟩ := run_update_listing hs he hperm hscan' hmatching'
  rw [setTable_self he] at hreports hdone hm
  obtain ⟨-, hentries⟩ := scan_there hscan he
  have hsub : found.Sublist rows := hmatching ▸ List.filter_sublist
  have hdistinct : (found.map fun row => fileName row.1).Nodup :=
    nodup_files (hs _ _ he).distinct hentries hsub
  have hthere : ∀ row ∈ found, fileName row.1 ∈ entries.names := by
    intro row hrow
    obtain ⟨-, content, hmem, -⟩ := shows_of_scanEntries hentries row (hsub.subset hrow)
    exact List.mem_map.2 ⟨_, hmem, rfl⟩
  have hleft : s.writable entries found = found → s.writable entries found' = found' →
      (Relists u.table ((executeUpdate rules u params).run s).2
          ((executeUpdate rules u params).run (s.setTable u.table there)).2 ↔
        ∀ name ∈ entries.names, name ∈ s.temporaryNames (found.map (·.1)) ↔
          name ∈ s.temporaryNames (found'.map (·.1))) := by
    intro hall hall'
    rw [hdone hall, hdone' hall', hall, hall', hfound.length_eq,
      relists_setTable_iff (s := s.counting found'.length) he]
    exact rewritten_perm_iff hperm hfound hdistinct
  refine ⟨hfound, hreports, hreports', hleft, fun hfresh => ?_, fun t name hne => ?_⟩
  · have hall := hfresh.writable
    have hall' := (hfresh.perm hfound).writable
    refine ⟨hall, hall', (hleft hall hall').2 fun name hname => ?_⟩
    exact iff_of_false (hfresh.not_mem hname) ((hfresh.perm hfound).not_mem hname)
  · rw [hm, hn] at hne
    exact readFile_rewritten he (hs _ _ he) hperm hdistinct hthere
      (writable_isPrefix s entries found).sublist.subperm
      ((writable_isPrefix s entries found').sublist.subperm.trans hfound.symm.subperm) hne

theorem run_update_failed {e : Error} (he : s.tableEntries u.table = .ok entries)
    (hscan : s.scan u.table = .error e) :
    ∃ e, (executeUpdate rules u params).run s = (.error e, s) := by
  cases htable : Names.isTable u.table with
  | false =>
    obtain ⟨fault, hrun⟩ := run_executeUpdate_of_not_isTable htable
    exact ⟨_, hrun⟩
  | true => exact ⟨e, run_executeUpdate_error htable he hscan⟩

end

/-! ## All statements -/

/-- What two orders of listing can change. Where the table cannot be listed, it cannot in either, and
nothing is changed. Otherwise a count is the same, a SELECT without LIMIT and OFFSET gives the same rows
up to their order, and the same list, under any LIMIT and OFFSET, where no two different rows compare
equal under its ORDER BY; then the pages of a SELECT are together all its rows, whichever order each of
them is taken from. A DELETE reports as many records and leaves the same entries. An UPDATE does too
if the names of all its temporary files are free and not too long, and else as far as the records go
that it reaches in both orders. -/
theorem statements_relisted (rules : Rules) (hs : s.Wellformed) (h : Relists table s s') :
    (∀ e, s.scan table = .error e → ∃ e', s'.scan table = .error e' ∧
      (∀ select params, select.table = table →
        (executeSelect rules select params).run s = (.error e, s) ∧
        (executeSelect rules select params).run s' = (.error e', s')) ∧
      (∀ delete params, delete.table = table →
        (executeDelete rules delete params).run s = (.error e, s) ∧
        (executeDelete rules delete params).run s' = (.error e', s')) ∧
      ∀ u params, u.table = table →
        (∃ f, (executeUpdate rules u params).run s = (.error f, s)) ∧
        ∃ f, (executeUpdate rules u params).run s' = (.error f, s')) ∧
    ∀ rows, s.scan table = .ok rows → ∃ rows', s'.scan table = .ok rows' ∧
      (∀ select params, select.table = table → ∃ out out',
        SelectAgrees rules select params s s' (foundRows rules select params rows) out out') ∧
      (∀ full params, full.table = table → full.countLabel = none → full.limit = none →
        full.offset = none → Strict full.order (foundRows rules full params rows) →
        ∃ out, (executeSelect rules full params).run s = (.ok (.rows out), s) ∧
          ∀ n m (parts : ℕ → Select) (partParams : ℕ → Params) (listings : ℕ → Shelf),
            (∀ k < m, PageOf full params n k (parts k) (partParams k)) →
            (∀ k < m, Relists table s (listings k)) → ∃ pages : ℕ → List Record,
              (∀ k < m, (executeSelect rules (parts k) (partParams k)).run (listings k) =
                (.ok (.rows (pages k)), listings k)) ∧
              (List.range m).flatMap pages = out.take (n * m) ∧
              (out.length ≤ n * m → (List.range m).flatMap pages = out)) ∧
      (∀ delete params, delete.table = table → ∃ n left left',
        (executeDelete rules delete params).run s = (.ok (.affected n none), left) ∧
        (executeDelete rules delete params).run s' = (.ok (.affected n none), left') ∧
        Relists table left left') ∧
      ∀ u params entries, u.table = table → s.tableEntries table = .ok entries →
        UpdateAgrees rules u params s s' entries
          (matching rules (updatePredicates u params) rows)
          (matching rules (updatePredicates u params) rows') := by
  obtain ⟨entries, there, he, hperm, hthere⟩ := id h
  have he' : s'.tableEntries table = .ok there := hthere ▸ tableEntries_setTable_self he there
  constructor
  · intro e hscan
    obtain ⟨e', hscan'⟩ := h.scan_error hscan
    refine ⟨e', hscan', ?_, ?_, ?_⟩
    · rintro select params rfl
      exact ⟨run_executeSelect_error hscan, run_executeSelect_error hscan'⟩
    · rintro delete params rfl
      exact ⟨run_executeDelete_error hscan, run_executeDelete_error hscan'⟩
    · rintro u params rfl
      exact ⟨run_update_failed he hscan, run_update_failed he' hscan'⟩
  · intro rows hscan
    obtain ⟨rows', hscan', hrows⟩ := h.scan_ok hscan
    refine ⟨rows', hscan', ?_, ?_, ?_, ?_⟩
    · rintro select params rfl
      exact selectAgrees select params hscan hscan' hrows
    · rintro full params rfl hcount hlimit hoffset hstrict
      refine ⟨_, run_unpaged hcount hlimit hoffset params hscan, ?_⟩
      intro n m parts partParams listings hparts hlistings
      obtain ⟨pages, hruns, hpages⟩ := run_pages hscan hstrict hparts hlistings
      refine ⟨pages, hruns, hpages, fun hlength => ?_⟩
      rw [hpages, List.take_of_length_le hlength]
    · rintro delete params rfl
      exact run_delete_relisted hs h params hscan
    · rintro u params entries' rfl hentries
      obtain rfl := Except.ok.inj (he.symm.trans hentries)
      subst hthere
      exact updateAgrees hs he hperm hscan hscan' hrows rfl rfl

/-- The table of two notes, listed from the last entry on. -/
def notesBackwards : Shelf := notes.setTable "notes" (notes.entriesOf "notes").reverse

theorem relists_notesBackwards : Relists "notes" notes notesBackwards :=
  ⟨notes.entriesOf "notes", _, rfl, (List.reverse_perm _).symm, rfl⟩

/-- All notes by their kind. -/
def notesByKind : Select := ⟨[.star], "notes", [], [⟨"kind", .ascending⟩], none, none⟩

theorem strict_notesByKind : Strict notesByKind.order
    [[("kind", .string "old")], [("kind", .string "new")]] := by
  have hgt : compareRows notesByKind.order [("kind", .string "old")] [("kind", .string "new")] = .gt := by
    decide
  have hlt : compareRows notesByKind.order [("kind", .string "new")] [("kind", .string "old")] = .lt := by
    decide
  intro a ha b hb heq
  simp only [List.mem_cons, List.not_mem_nil, or_false] at ha hb
  rcases ha with rfl | rfl <;> rcases hb with rfl | rfl
  · rfl
  · exact nomatch hgt.symm.trans heq
  · exact nomatch hlt.symm.trans heq
  · rfl

/-- Two pages of one note each, taken from two orders of listing. -/
theorem notes_relisted : ∃ out first second,
    (executeSelect ⟨⟨[], []⟩, ⟨[], []⟩⟩ notesByKind .none).run notes = (.ok (.rows out), notes) ∧
    (executeSelect ⟨⟨[], []⟩, ⟨[], []⟩⟩ (withPage notesByKind 1 0) .none).run notes =
      (.ok (.rows first), notes) ∧
    (executeSelect ⟨⟨[], []⟩, ⟨[], []⟩⟩ (withPage notesByKind 1 1) .none).run notesBackwards =
      (.ok (.rows second), notesBackwards) ∧
    first ++ second = out.take 2 := by
  obtain ⟨rows', -, -, hpages, -⟩ := (statements_relisted ⟨⟨[], []⟩, ⟨[], []⟩⟩ wellformed_notes
    relists_notesBackwards).2 _ scan_notes
  obtain ⟨out, hout, hparts⟩ := hpages notesByKind .none rfl rfl rfl rfl strict_notesByKind
  obtain ⟨pages, hruns, hsame, -⟩ := hparts 1 2 (withPage notesByKind 1) (fun _ => .none)
    (fun k => if k = 0 then notes else notesBackwards)
    (fun k hk => pageOf_withPage rfl .none (by decide) (by omega))
    (fun k hk => by
      split_ifs
      · exact Relists.refl rfl
      · exact relists_notesBackwards)
  refine ⟨out, pages 0, pages 1, hout, hruns 0 (by decide), hruns 1 (by decide), ?_⟩
  simpa only [List.range_succ, List.range_zero, List.nil_append, List.flatMap_append,
    List.flatMap_singleton] using hsame

/-- The files of notes of the old kind under some keys. -/
def oldEntries (keys : List String) : Entries :=
  keys.map fun key => (fileName key, .file (RecordFile.encode [("kind", .string "old")]))

/-- A table with these files. -/
def oldNotes (keys : List String) : Shelf :=
  ⟨"data", [], 1, 0, some (.directory [("notes", .directory (oldEntries keys))])⟩

theorem relists_oldNotes {keys keys' : List String} (h : keys.Perm keys') :
    Relists "notes" (oldNotes keys) (oldNotes keys') :=
  ⟨oldEntries keys, oldEntries keys', rfl, h.map _, rfl⟩

theorem scan_oldNotes {keys : List String} (h : ∀ key ∈ keys, Names.isKey key = true) :
    (oldNotes keys).scan "notes" = .ok (keys.map fun key => (key, [("kind", .string "old")])) := by
  have hold : Storable [("kind", .string "old")] := ⟨⟨by decide, trivial, trivial⟩, by decide⟩
  refine Shelf.scan_eq (by decide) rfl ?_
  have hauto : (oldNotes keys).isAutoIncrement "notes" = false := rfl
  rw [hauto]
  clear hauto
  induction keys with
  | nil => rfl
  | cons key keys ih =>
    obtain ⟨hkey, hkeys⟩ := List.forall_mem_cons.1 h
    have hshown : Shelf.recordKey? false (fileName key) = some key := recordKey?_fileName hkey rfl
    rw [oldEntries, List.map_cons, Shelf.scanEntries_first, hshown]
    dsimp only
    rw [RecordFile.decode_encode hold]
    exact congrArg (Except.map _) (ih hkeys)

theorem wellformed_oldNotes {keys : List String} (hdistinct : keys.Nodup)
    (hfits : ∀ key ∈ keys, Node.fits (fileName key) = true) : (oldNotes keys).Wellformed := by
  have hnames : Named.names (oldEntries keys) = keys.map fileName := by
    rw [oldEntries, Named.names, List.map_map]
    rfl
  intro t entries h
  obtain ⟨tables, hroot, hget⟩ := Shelf.tableEntries_eq_ok_iff.1 h
  cases hroot
  by_cases ht : "notes" = t
  · simp only [Named.get?, ht, if_true] at hget
    cases hget
    refine ⟨?_, ?_⟩
    · rw [hnames]
      exact hdistinct.map fun _ _ => fileName_injective
    · rw [hnames]
      exact List.forall_mem_map.2 hfits
  · simp [Named.get?, ht] at hget

/-- The temporary file for a key is no file of a record. -/
theorem canWrite_oldEntries (s : Shelf) (keys : List String) (key : String) :
    s.canWrite (oldEntries keys) key = Node.fits (s.temporaryName key) := by
  have hnone : Named.get? (oldEntries keys) (s.temporaryName key) = none := by
    rw [Named.get?_eq_none_iff]
    intro hmem
    obtain ⟨entry, hentry, hname⟩ := List.mem_map.1 hmem
    obtain ⟨other, -, rfl⟩ := List.mem_map.1 hentry
    exact fileName_ne_temporaryName s other key hname
  rw [canWrite, hnone]
  exact Bool.and_true _

/-- Sets the kind of all notes. -/
def renewAll : Update := ⟨"notes", [⟨"kind", .literal (.string "new")⟩], 0, []⟩

/-- The old notes under a key that can be written over and under one that cannot. -/
theorem wideKeys : (∀ key ∈ ["1", wideKey], Names.isKey key = true) ∧
    (∀ key ∈ ["1", wideKey], Node.fits (fileName key) = true) ∧ ["1", wideKey].Nodup := by
  have hne : "1" ≠ wideKey := by
    intro heq
    have hsize := congrArg String.utf8ByteSize heq
    rw [wideKey, utf8ByteSize_onesKey] at hsize
    exact absurd hsize (by decide)
  refine ⟨?_, ?_, ?_⟩
  · exact List.forall_mem_cons.2 ⟨by decide,
      List.forall_mem_singleton.2 (isKey_onesKey (by decide) (by decide))⟩
  · exact List.forall_mem_cons.2 ⟨by decide, List.forall_mem_singleton.2 fits_fileName_wideKey⟩
  · exact List.nodup_cons.2 ⟨fun hmem => hne (List.mem_singleton.1 hmem), List.nodup_singleton _⟩

theorem shows_oldEntries {keys : List String} {key : String} (hmem : key ∈ keys)
    (hkey : Names.isKey key = true) : Shelf.Shows (oldEntries keys) (key, [("kind", .string "old")]) := by
  have hold : Storable [("kind", .string "old")] := ⟨⟨by decide, trivial, trivial⟩, by decide⟩
  exact ⟨hkey, _, List.mem_map.2 ⟨key, hmem, rfl⟩, RecordFile.decode_encode hold⟩

/-- The shelf that is left when not all of the old notes can be written over. -/
theorem shelf_renewAll {keys : List String} {done : List (String × Record)}
    (hs : (oldNotes keys).Wellformed) (hkeys : ∀ key ∈ keys, Names.isKey key = true)
    (hdone : (oldNotes keys).writable (oldEntries keys)
      (keys.map fun key => (key, [("kind", .string "old")])) = done)
    (hne : done ≠ keys.map fun key => (key, [("kind", .string "old")])) :
    ((executeUpdate ⟨⟨[], []⟩, ⟨[], []⟩⟩ renewAll .none).run (oldNotes keys)).2 =
      overwritten ⟨⟨[], []⟩, ⟨[], []⟩⟩ (bindAssignments renewAll .none).1 (oldNotes keys) "notes"
        (oldEntries keys) done (done.length + 1) := by
  have hmatching : matching ⟨⟨[], []⟩, ⟨[], []⟩⟩ (updatePredicates renewAll .none)
      (keys.map fun key => (key, [("kind", .string "old")])) =
        keys.map fun key => (key, [("kind", .string "old")]) :=
    List.filter_true _
  obtain ⟨-, hsome⟩ := @run_executeUpdate ⟨⟨[], []⟩, ⟨[], []⟩⟩ _ (oldEntries keys) renewAll .none hs rfl
    _ _ (scan_oldNotes hkeys) hmatching
  rw [hdone] at hsome
  obtain ⟨path, cause, hrun⟩ := hsome hne
  exact congrArg Prod.snd hrun

/-- An UPDATE that fails in both orders has reached one of the records in one of them only. -/
theorem update_depends_on_order : Relists "notes" (oldNotes ["1", wideKey]) (oldNotes [wideKey, "1"]) ∧
    ((executeUpdate ⟨⟨[], []⟩, ⟨[], []⟩⟩ renewAll .none).run (oldNotes ["1", wideKey])).2.get
      "notes" "1" = .ok (some [("kind", .string "new")]) ∧
    ((executeUpdate ⟨⟨[], []⟩, ⟨[], []⟩⟩ renewAll .none).run (oldNotes [wideKey, "1"])).2.get
      "notes" "1" = .ok (some [("kind", .string "old")]) := by
  have hswap : ["1", wideKey].Perm [wideKey, "1"] := List.Perm.swap _ _ _
  have hrelists := relists_oldNotes hswap
  obtain ⟨hkeys, hfits, hdistinct⟩ := wideKeys
  have hs : (oldNotes ["1", wideKey]).Wellformed := wellformed_oldNotes hdistinct hfits
  have hkeys' : ∀ key ∈ [wideKey, "1"], Names.isKey key = true := fun key hkey =>
    hkeys key (hswap.mem_iff.2 hkey)
  have hblocked (s : Shelf) (keys : List String) : s.canWrite (oldEntries keys) wideKey = false := by
    rw [canWrite_oldEntries, not_fits_temporaryName_wideKey]
  have hone (keys : List String) (hmem : "1" ∈ keys) :
      Shelf.Shows (oldEntries keys) ("1", [("kind", .string "old")]) :=
    shows_oldEntries hmem (by decide)
  refine ⟨hrelists, ?_, ?_⟩
  · have hfirst : (oldNotes ["1", wideKey]).canWrite (oldEntries ["1", wideKey]) "1" = true := by
      rw [canWrite_oldEntries]
      decide
    have hdone : (oldNotes ["1", wideKey]).writable (oldEntries ["1", wideKey])
        [("1", [("kind", .string "old")]), (wideKey, [("kind", .string "old")])] =
          [("1", [("kind", .string "old")])] := by
      rw [writable, if_pos hfirst, writable, hblocked, if_neg Bool.false_ne_true]
    have hnew : Storable [("kind", .string "new")] := ⟨⟨by decide, trivial, trivial⟩, by decide⟩
    rw [shelf_renewAll hs hkeys hdone (by simp)]
    exact @get_overwritten ⟨⟨[], []⟩, ⟨[], []⟩⟩ (oldNotes ["1", wideKey]) "notes"
      (oldEntries ["1", wideKey]) (bindAssignments renewAll .none).1 hs (by decide) rfl
      [("1", [("kind", .string "old")])] (List.nodup_singleton _)
      (List.forall_mem_singleton.2 (hone _ List.mem_cons_self)) _ List.mem_cons_self hnew 2
  · have hdone : (oldNotes [wideKey, "1"]).writable (oldEntries [wideKey, "1"])
        [(wideKey, [("kind", .string "old")]), ("1", [("kind", .string "old")])] = [] := by
      rw [writable, hblocked, if_neg Bool.false_ne_true]
    have hentries : ((oldNotes [wideKey, "1"]).counting 1).tableEntries "notes" =
        .ok (oldEntries [wideKey, "1"]) := rfl
    have hsound : Sound (oldEntries [wideKey, "1"]) := hrelists.wellformed hs "notes" _ rfl
    have hshows := hone [wideKey, "1"] (List.mem_cons_of_mem _ List.mem_cons_self)
    have hget := Shelf.get_of_shows (by decide) hentries hsound hshows
    rw [shelf_renewAll (hrelists.wellformed hs) hkeys' hdone (by simp), overwritten_nil rfl]
    exact hget

end RecordShelf.Query

import RecordShelf.Proofs.Query.Listings
import RecordShelf.Proofs.Query.Numbers
import RecordShelf.Proofs.Query.UpdateFrame
import RecordShelf.Proofs.Query.Upsert
import RecordShelf.Proofs.Shelf.FileAt

/-!
# Upserts under one key

An INSERT that merges goes under the key of its record: it is merged with what is read there, and
what comes of it is read by the next one. So in the end the record has all fields of those that
could be stored, each with its last value.
-/

namespace RecordShelf

/-! ## Records merged in turn -/

namespace Query
open Sql RecordShelf.Shelf
variable {old : Option Record} {r m : Record} {rs : List Record}

/-- What is read of a record that has been stored: nothing if it is nested too deeply. -/
def readBack (r : Record) : Option Record :=
  if (Json.object r).depth ≤ Json.depthLimit then some r else none

theorem decode_encode_eq (hr : (Json.object r).UniqueNames) :
    RecordFile.decode (RecordFile.encode r) = readBack r := by
  rw [readBack]
  by_cases hdepth : (Json.object r).depth ≤ Json.depthLimit
  · rw [if_pos hdepth, RecordFile.decode_encode ⟨hr, hdepth⟩]
  · rw [if_neg hdepth, RecordFile.decode_encode_of_deep hr (Nat.lt_of_not_le hdepth)]

end Query

/-! ## What stands in the way -/

namespace Shelf
variable {s s' made : Shelf} {table key : String} {old : Option Record}

/-- The shelf with a directory for a table, and otherwise as it was. -/
structure Made (s : Shelf) (table : String) (made : Shelf) : Prop where
  run : s.withTable table = .ok made
  there : made.tableEntries table = .ok (s.entriesOf table)
  process : made.process = s.process
  written : made.written = s.written

/-- Where a record can be looked up no directory has the name of its file. -/
theorem free_of_get (h : s.get table key = .ok old) :
    ∀ es, (s.entriesOf table).get? (fileName key) ≠ some (.directory es) := by
  intro es hget
  obtain ⟨_, -, hread⟩ := ok_of_bind h
  cases he : s.tableEntries table with
  | error cause =>
    rw [entriesOf, he] at hget
    exact absurd hget (by simp [Except.toOption, Named.get?])
  | ok entries =>
    rw [entriesOf, he] at hget
    rw [readFile_of_ok he] at hread
    split_ifs at hread with hfits
    change entries.get? (fileName key) = some (.directory es) at hget
    rw [hget] at hread
    exact absurd hread (by simp [throw_eq_error])

theorem get_eq_record {bytes : ByteArray} (hkey : Names.isKey key = true)
    (htable : Names.isTable table = true) (h : s.content (table, key) = some bytes) :
    s.get table key = .ok (s.record (table, key)) := by
  rw [get_of_content hkey htable h, record, h, Option.bind_some]

theorem Made.temporaryName (h : s.Made table made) (key : String) :
    made.temporaryName key = s.temporaryName key := by
  rw [Shelf.temporaryName, Shelf.temporaryName, h.process, h.written]

theorem Made.canWrite (h : s.Made table made) (entries : Entries) (key : String) :
    made.canWrite entries key = s.canWrite entries key := by
  rw [Shelf.canWrite, Shelf.canWrite, h.temporaryName]

theorem Made.putOver (h : s.Made table made) (entries : Entries) (key : String) (r : Record) :
    made.putOver entries key r = s.putOver entries key r := by
  rw [Shelf.putOver, Shelf.putOver, h.temporaryName]

end Shelf

/-! ## One upsert -/

namespace Query
open Sql RecordShelf.Shelf

/-- A text that merges a record under a key of a table. -/
structure Upsert (rules : Rules) (table key : String) where
  request : Request
  insert : Insert
  record : Record
  identity : Identity
  statement : request.statement? = some (.insert insert)
  onTable : insert.table = table
  onDuplicate : insert.onDuplicate = true
  reads : insertRecord insert request.params = .ok record
  resolves : rules.identity.resolve table record = some identity
  underKey : identity.key = key

namespace Upsert
variable {rules : Rules} {table key : String} {u : Upsert rules table key} {s s' : Shelf}
  {outcome : Except Error Result}

theorem unique (u : Upsert rules table key) : (Json.object u.record).UniqueNames :=
  unique_insertRecord u.request.proper u.reads

theorem storable (hdepth : (Json.object u.record).depth ≤ Json.depthLimit) : Storable u.record :=
  ⟨u.unique, hdepth⟩

/-- What an upsert does: it fails and changes nothing where the record cannot be looked up; else the
table is made, and then the temporary file cannot be, or the merged record goes into its file. -/
inductive Runs (u : Upsert rules table key) (s : Shelf) : Except Error Result × Shelf → Prop
  | unread {e : Error} (unread : s.get table key = .error e) : Runs u s (.error e, s)
  | refused {e : Error} {made : Shelf} {old : Option Record} (read : s.get table key = .ok old)
      (making : s.Made table made) (blocked : s.canWrite (s.entriesOf table) key = false) :
      Runs u s (.error e, made.counting 1)
  | stored {made : Shelf} {old : Option Record} (read : s.get table key = .ok old)
      (making : s.Made table made) (free : s.canWrite (s.entriesOf table) key = true) :
      Runs u s (.ok (inserted u.identity.value), (made.counting 1).setTable table
        (s.putOver (s.entriesOf table) key (mergeRecord true old u.record)))

/-- An upsert changes no file but the record's and the temporary one. -/
theorem Runs.fileAt (hs : s.Wellformed) (h : u.Runs s (outcome, s')) {path : TreePath}
    (hrecord : path ≠ [table, fileName key])
    (htemporary : path ≠ [table, s.temporaryName key]) : s'.fileAt path = s.fileAt path := by
  cases h with
  | unread unread => rfl
  | @refused _ made _ read making blocked =>
    rw [fileAt_counting, fileAt_withTable making.run]
  | @stored made _ read making free =>
    have hfree : made.canWrite (s.entriesOf table) key = true := by rw [making.canWrite, free]
    rw [← counting_setTable, fileAt_counting, ← making.putOver]
    rw [← making.temporaryName] at htemporary
    rw [fileAt_putOver making.there (hs.entriesOf table).distinct (free_of_get read) hfree _ hrecord
      htemporary, fileAt_withTable making.run]

/-- Where an upsert has succeeded the merged record is in its file, and what stands in the way of
the next one is what would have stood in the way of a second one. -/
structure Merges (u : Upsert rules table key) (s s' : Shelf) : Prop where
  names : Names.isKey key = true ∧ Names.isTable table = true
  content : s'.content (table, key) =
    some (RecordFile.encode (mergeRecord true (s.record (table, key)) u.record))
  temporary : ∀ i, (s'.counting i).temporaryName key = (s.counting (i + 1)).temporaryName key
  next : ∀ i, (s'.counting i).canWrite (s'.entriesOf table) key =
    (s.counting (i + 1)).canWrite (s.entriesOf table) key

theorem Merges.record (h : u.Merges s s') : s'.record (table, key) =
    readBack (mergeRecord true (s.record (table, key)) u.record) := by
  have hunique : (Json.object (mergeRecord true (s.record (table, key)) u.record)).UniqueNames :=
    unique_mergeRecord (fun old hold => (storable_of_record hold).unique) u.unique
  rw [Shelf.record, h.content, Option.bind_some, decode_encode_eq hunique]

theorem Merges.get (h : u.Merges s s') : s'.get table key = .ok (s'.record (table, key)) :=
  get_eq_record h.names.1 h.names.2 h.content

/-! ## Upserts one after another -/

/-- The shelf after some upserts in turn. -/
def afterAll (s : Shelf) (us : List (Upsert rules table key)) : Shelf :=
  Request.afterAll rules s (us.map fun u => u.request)

theorem afterAll_cons (s : Shelf) (u : Upsert rules table key)
    (us : List (Upsert rules table key)) :
    afterAll s (u :: us) = afterAll (u.request.after rules s) us := by
  rw [afterAll, List.map_cons, Request.afterAll_cons, afterAll]

section
variable {auto : List String} (hauto : auto.contains table = false)
  {us : List (Upsert rules table key)}
include hauto

end

end Upsert

/-! ## The whole -/

section
variable {rules : Rules} {table key : String} {s : Shelf}

end

end Query

end RecordShelf

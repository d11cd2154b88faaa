import RecordShelf.Database.Chats
import RecordShelf.Proofs.Database.RightCaches

/-!
# A lookup beside a write

A lookup looks into the caches, reads the shelf and sets what it has made of it; a write changes the
shelf and then drops the entry and the record behind it. Here the steps of one lookup and of one
write of the same entry alternate in any order, while time goes on. Once the write has succeeded, what
stands in the entry is what would now be loaded, unless the lookup has been overtaken: it took what it
sets before the write and sets it after the write has dropped the entry.
-/

namespace RecordShelf

/-- A cached value that is made from one look at the shelf. -/
structure CachedEntry where
  place : Invalidation
  /-- The name under which the cache of records keeps what was read, if it does. -/
  recordName? : Option String
  dropped : ∀ name ∈ recordName?, place.recordName? = some name
  read : Shelf → Except Error (Option Json)
  value : Except Error (Option Json) → Except Error Json

namespace CachedEntry
open DatabaseM

/-- What would be loaded from a shelf. -/
def answer (e : CachedEntry) (s : Shelf) : Except Error Json := e.value (e.read s)

/-- The record that the cache of records has for the entry. -/
def heldRecord (e : CachedEntry) (db : Database) : Option Json × Database :=
  match e.recordName? with
  | none => (none, db)
  | some name =>
    let (r, records) := db.records.get db.clock name
    (r, { db with records := records })

theorem heldRecord_of_none {e : CachedEntry} (hname : e.recordName? = none) (db : Database) :
    e.heldRecord db = (none, db) := by
  rw [heldRecord, hname]

theorem heldRecord_of_get {e : CachedEntry} {db : Database} {name : String} {found : Option Json}
    {records : TimedCache Json} (hname : e.recordName? = some name)
    (hget : db.records.get db.clock name = (found, records)) :
    e.heldRecord db = (found, { db with records := records }) := by
  simp only [heldRecord, hname, hget]

/-- Keeps what was read in the cache of records. -/
def keep (e : CachedEntry) (db : Database) : Except Error (Option Json) → Database
  | .ok (some r) =>
    match e.recordName? with
    | none => db
    | some name => { db with records := db.records.set db.clock name r }
  | _ => db

@[simp] theorem shelf_keep (e : CachedEntry) (db : Database) (source : Except Error (Option Json)) :
    (e.keep db source).shelf = db.shelf := by
  unfold keep
  split
  · split <;> rfl
  · rfl

@[simp] theorem caches_keep (e : CachedEntry) (db : Database)
    (source : Except Error (Option Json)) : (e.keep db source).caches = db.caches := by
  unfold keep
  split
  · split <;> rfl
  · rfl

theorem distinct_keep (e : CachedEntry) {db : Database} (h : db.records.Distinct)
    (source : Except Error (Option Json)) : (e.keep db source).records.Distinct := by
  unfold keep
  split
  · split
    · exact h
    · exact h.set _ _ _
  · exact h

/-- What the cache of records has for the entry, or else what is read, which is then kept. -/
def fetch (e : CachedEntry) (db : Database) : Except Error (Option Json) × Database :=
  match e.heldRecord db with
  | (some r, db) => (.ok (some r), db)
  | (none, db) => (e.read db.shelf, e.keep db (e.read db.shelf))

def load (e : CachedEntry) : DatabaseM Json := fun db =>
  let (r, db) := e.fetch db
  (e.value r, db)

/-! ## The entries of the database -/

section
variable (peer user : Int64)

def role : CachedEntry where
  place := .role peer user
  recordName? := (Invalidation.role peer user).recordName?
  dropped _ h := h
  read s := (s.get (rolesTable peer) (idText user)).map (·.map Json.object)
  value
    | .ok r => .ok (.ofInt64 (((r.bind (·.field? "role_id")).bind Json.toInt64?).getD 0))
    | .error _ => .ok (.ofInt64 0)

def chatSettings : CachedEntry where
  place := .chatSettings peer
  recordName? := (Invalidation.chatSettings peer).recordName?
  dropped _ h := h
  read s := (s.get "conference" (idText peer)).map (·.map Json.object)
  value r := r.map (·.getD (.object defaultChatSettings))

def nickname : CachedEntry where
  place := .nickname peer user
  recordName? := none
  dropped _ h := absurd h (by simp)
  read s := (s.get (nicknamesTable peer) (idText user)).map (·.map Json.object)
  value r := r.map fun r => (r.bind (·.field? "nickname")).getD .null

end

/-- A record through the cache of records, as an entry fetches it. -/
theorem run_record? {e : CachedEntry} {name table key : String} (hname : e.recordName? = some name)
    (hread : ∀ s : Shelf, e.read s = (s.get table key).map (·.map Json.object)) (db : Database) :
    (record? name table key).run db = e.fetch db := by
  have hcached : (cachedRecord? name).run db = (.ok (e.heldRecord db).1, (e.heldRecord db).2) := by
    rw [heldRecord, hname]
    rfl
  rw [record?, run_bind_of_ok hcached, fetch]
  cases e.heldRecord db with
  | mk found db' =>
    cases found with
    | some r => rfl
    | none =>
      have hget : (onShelf (ShelfM.get table key)).run db' = (db'.shelf.get table key, db') := by
        rw [run_onShelf, ShelfM.get, ShelfM.run_read]
      dsimp only
      rw [hread]
      cases hstored : db'.shelf.get table key with
      | error err =>
        rw [hstored] at hget
        rw [run_bind_of_error hget]
        rfl
      | ok r =>
        rw [hstored] at hget
        rw [run_bind_of_ok hget]
        cases r with
        | none => rfl
        | some r =>
          have hkept : e.keep db' (.ok (some (.object r))) =
              { db' with records := db'.records.set db'.clock name (.object r) } := by
            rw [keep, hname]
          exact congrArg (Prod.mk _) hkept.symm

theorem run_roleValue (peer user : Int64) (db : Database) :
    (roleValue peer user).run db = (role peer user).load.run db := by
  have hrecord := run_record? (e := role peer user) rfl (fun _ => rfl) db
  have hstored : (storedRole peer user).run db = (((role peer user).fetch db).1.map fun r =>
      ((r.bind (·.field? "role_id")).bind Json.toInt64?).getD 0, ((role peer user).fetch db).2) := by
    rw [← hrecord]
    exact run_map_eq _ (fun r : Option Json =>
      ((r.bind (·.field? "role_id")).bind Json.toInt64?).getD 0) db
  have hload : (role peer user).load.run db =
      ((role peer user).value ((role peer user).fetch db).1, ((role peer user).fetch db).2) := rfl
  have hvalue : (roleValue peer user).run db = (((loadRole peer user).run db).1.map Json.ofInt64,
      ((loadRole peer user).run db).2) := run_map_eq _ Json.ofInt64 db
  rw [hload, hvalue, loadRole]
  cases hfetch : ((role peer user).fetch db).1 with
  | error err =>
    rw [hfetch] at hstored
    rw [run_tryCatch_of_error hstored]
    rfl
  | ok r =>
    rw [hfetch] at hstored
    rw [run_tryCatch_of_ok hstored]
    rfl

theorem run_storedChatSettings (peer : Int64) (db : Database) :
    (storedChatSettings peer).run db = (chatSettings peer).load.run db := by
  have hrecord : (record? ((Invalidation.chatSettings peer).recordName?.getD "") "conference"
      (idText peer)).run db = (chatSettings peer).fetch db := run_record? rfl (fun _ => rfl) db
  have hmap := run_map_eq (record? ((Invalidation.chatSettings peer).recordName?.getD "")
    "conference" (idText peer)) (fun r => r.getD (.object defaultChatSettings)) db
  rw [hrecord] at hmap
  exact hmap

theorem run_storedNickname (peer user : Int64) (db : Database) :
    (storedNickname peer user).run db = (nickname peer user).load.run db := by
  have hmap := run_map_eq (onShelf (ShelfM.get (nicknamesTable peer) (idText user)))
    (fun r => (r.bind (·.get? "nickname")).getD .null) db
  have hload : (nickname peer user).load.run db = ((nickname peer user).answer db.shelf,
      (nickname peer user).keep db ((nickname peer user).read db.shelf)) := rfl
  have hread : (nickname peer user).read db.shelf =
      (db.shelf.get (nicknamesTable peer) (idText user)).map (·.map Json.object) := rfl
  refine hmap.trans ?_
  rw [run_onShelf, ShelfM.get, ShelfM.run_read, hload, answer, hread]
  cases db.shelf.get (nicknamesTable peer) (idText user) with
  | error err => rfl
  | ok r => cases r <;> rfl

end CachedEntry

/-! ## Steps of a lookup and of a write -/

/-- How far a write through the caches has come. -/
inductive WritePhase where
  | ready
  | written (result : Query.Result)
  | dropping (result : Query.Result)
  | finished (outcome : Except Error Query.Result)

namespace WritePhase

/-- Whether the shelf has been changed, or the attempt has failed. -/
def hasWritten : WritePhase → Bool
  | ready => false
  | _ => true

/-- Whether the entry has been dropped. -/
def hasDropped : WritePhase → Bool
  | dropping _ | finished (.ok _) => true
  | _ => false

/-- Whether the record behind the entry has been dropped. -/
def hasDroppedRecord : WritePhase → Bool
  | finished (.ok _) => true
  | _ => false

theorem succeeded_of_hasDroppedRecord {write : WritePhase} (h : write.hasDroppedRecord = true) :
    ∃ result, write = finished (.ok result) := by
  cases write with
  | finished outcome =>
    cases outcome with
    | ok result => exact ⟨result, rfl⟩
    | error err => exact nomatch h
  | _ => exact nomatch h

def left : WritePhase → ℕ
  | ready => 3
  | written _ => 2
  | dropping _ => 1
  | finished _ => 0

/-- One step of a write. -/
def next (e : CachedEntry) (sql : String) (params : Query.Params) (db : Database) :
    WritePhase → WritePhase × Database
  | ready =>
    match (DatabaseM.execute sql params).run db with
    | (.ok result, db) => (written result, db)
    | (.error err, db) => (finished (.error err), db)
  | written result =>
    (dropping result, { db with caches := db.caches.invalidate e.place.space e.place.key })
  | dropping result =>
    match e.place.recordName? with
    | none => (finished (.ok result), db)
    | some name => (finished (.ok result), { db with records := (db.records.invalidate name).2 })
  | finished outcome => (finished outcome, db)

end WritePhase

/-- What a lookup makes its value of, with how far the write had come when it was taken. -/
structure Taken where
  source : Except Error (Option Json)
  /-- It comes from the cache of records, not from the shelf. -/
  recalled : Bool
  write : WritePhase

/-- Before the write changed it on the shelf, or dropped it from the cache of records. -/
def Taken.early (t : Taken) : Bool :=
  if t.recalled then !t.write.hasDroppedRecord else !t.write.hasWritten

/-- How far a lookup has come. -/
inductive LookupPhase where
  | begun
  | missed
  | unrecalled
  | read (t : Taken)
  | loaded (t : Taken)
  | found (value : Json)
  | failed (err : Error)
  /-- The value has been set, when the write had come so far. -/
  | stored (t : Taken) (value : Json) (write : WritePhase)

namespace LookupPhase

/-- One step of a lookup, while the write has come so far. -/
def next (e : CachedEntry) (write : WritePhase) (db : Database) :
    LookupPhase → LookupPhase × Database
  | begun =>
    match db.caches.get db.clock e.place.space e.place.key with
    | (some value, caches) => (found value, { db with caches := caches })
    | (none, caches) => (missed, { db with caches := caches })
  | missed =>
    match e.heldRecord db with
    | (some r, db) => (loaded ⟨.ok (some r), true, write⟩, db)
    | (none, db) => (unrecalled, db)
  | unrecalled => (read ⟨e.read db.shelf, false, write⟩, db)
  | read t => (loaded t, e.keep db t.source)
  | loaded t =>
    match e.value t.source with
    | .ok value => (stored t value write,
        { db with caches := db.caches.set db.clock e.place.space e.place.key value })
    | .error err => (failed err, db)
  | phase => (phase, db)

/-- What a lookup that is done gives. -/
def result? : LookupPhase → Option (Except Error Json)
  | found value | stored _ value _ => some (.ok value)
  | failed err => some (.error err)
  | _ => none

/-- What has been taken. -/
def taken? : LookupPhase → Option Taken
  | read t | loaded t | stored t _ _ => some t
  | _ => none

/-- Whether the cache of records has still to be asked. -/
def recalls : LookupPhase → Bool
  | begun | missed => true
  | _ => false

/-- How many steps are left at most. -/
def left : LookupPhase → ℕ
  | begun => 5
  | missed => 4
  | unrecalled => 3
  | read _ => 2
  | loaded _ => 1
  | _ => 0

end LookupPhase

/-- One lookup and one write of the same entry, on one database. -/
structure Encounter where
  db : Database
  lookup : LookupPhase
  write : WritePhase

namespace Encounter

/-- Whose turn it is; the clock runs in between. -/
inductive Turn where
  | lookup
  | write
  | wait (ms : ℕ)
  deriving DecidableEq

def begin (db : Database) : Encounter := ⟨db, .begun, .ready⟩

variable (e : CachedEntry) (sql : String) (params : Query.Params)

def step (σ : Encounter) : Turn → Encounter
  | .lookup => ⟨(σ.lookup.next e σ.write σ.db).2, (σ.lookup.next e σ.write σ.db).1, σ.write⟩
  | .write =>
    ⟨(σ.write.next e sql params σ.db).2, σ.lookup, (σ.write.next e sql params σ.db).1⟩
  | .wait ms => ⟨σ.db.advance ms, σ.lookup, σ.write⟩

def run (σ : Encounter) (turns : List Turn) : Encounter := turns.foldl (step e sql params) σ

variable {e : CachedEntry} {sql : String} {params : Query.Params}

variable {σ : Encounter}

theorem step_lookup {db db' : Database} {lookup lookup' : LookupPhase} {write : WritePhase}
    (h : lookup.next e write db = (lookup', db')) :
    step e sql params ⟨db, lookup, write⟩ .lookup = ⟨db', lookup', write⟩ := by
  rw [step, h]

theorem step_write {db db' : Database} {lookup : LookupPhase} {write write' : WritePhase}
    (h : write.next e sql params db = (write', db')) :
    step e sql params ⟨db, lookup, write⟩ .write = ⟨db', lookup, write'⟩ := by
  rw [step, h]

theorem run_cons (t : Turn) (turns : List Turn) :
    σ.run e sql params (t :: turns) = (σ.step e sql params t).run e sql params turns := rfl

/-! ## Whole lookups and writes -/

theorem run_lookups_of_left (h : σ.lookup.left = 0) (n : ℕ) :
    σ.run e sql params (List.replicate n .lookup) = σ := by
  induction n with
  | zero => rfl
  | succ n ih =>
    have hstay : σ.lookup.next e σ.write σ.db = (σ.lookup, σ.db) := by
      cases hphase : σ.lookup with
      | found value => rfl
      | failed err => rfl
      | stored t value write => rfl
      | _ => rw [hphase] at h; exact absurd h (by simp [LookupPhase.left])
    have hstep : σ.step e sql params .lookup = σ := step_lookup hstay
    rw [List.replicate_succ, run_cons, hstep]
    exact ih

/-- What a lookup comes to that has fetched something. -/
theorem run_loaded {db : Database} {t : Taken} {write : WritePhase} (n : ℕ) {load : DatabaseM Json}
    {before start : Database} (hload : load.run start = (e.value t.source, db))
    (hmiss : (DatabaseM.cached? e.place.space e.place.key).run before = (.ok none, start)) :
    let σ := (Encounter.mk db (.loaded t) write).run e sql params (List.replicate (n + 1) .lookup)
    σ.lookup.result? = some ((DatabaseM.lookup e.place.space e.place.key load).run before).1 ∧
      σ.db = ((DatabaseM.lookup e.place.space e.place.key load).run before).2 := by
  rw [List.replicate_succ, run_cons, DatabaseM.lookup, run_bind_of_ok hmiss]
  cases hvalue : e.value t.source with
  | ok value =>
    have hnext : LookupPhase.next e write db (.loaded t) = (.stored t value write,
        { db with caches := db.caches.set db.clock e.place.space e.place.key value }) := by
      rw [LookupPhase.next, hvalue]
    rw [hvalue] at hload
    rw [step_lookup hnext, run_lookups_of_left rfl]
    dsimp only
    rw [run_bind_of_ok hload]
    exact ⟨rfl, rfl⟩
  | error err =>
    have hnext : LookupPhase.next e write db (.loaded t) = (.failed err, db) := by
      rw [LookupPhase.next, hvalue]
    rw [hvalue] at hload
    rw [step_lookup hnext, run_lookups_of_left rfl]
    dsimp only
    rw [run_bind_of_error hload]
    exact ⟨rfl, rfl⟩

/-- What four more steps of a lookup come to where the cache has no answer. -/
theorem run_missed {before start : Database}
    (hmiss : (DatabaseM.cached? e.place.space e.place.key).run before = (.ok none, start)) :
    let σ := (Encounter.mk start .missed .ready).run e sql params (List.replicate 4 .lookup)
    σ.lookup.result? = some ((DatabaseM.lookup e.place.space e.place.key e.load).run before).1 ∧
      σ.db = ((DatabaseM.lookup e.place.space e.place.key e.load).run before).2 := by
  have hload : e.load.run start = (e.value (e.fetch start).1, (e.fetch start).2) := rfl
  rw [CachedEntry.fetch] at hload
  rw [List.replicate_succ, run_cons]
  cases hrecall : e.heldRecord start with
  | mk recalled db =>
    rw [hrecall] at hload
    cases recalled with
    | some r =>
      have hnext : LookupPhase.next e .ready start .missed =
          (.loaded ⟨.ok (some r), true, .ready⟩, db) := by
        rw [LookupPhase.next, hrecall]
      rw [step_lookup hnext]
      exact run_loaded 2 hload hmiss
    | none =>
      have hnext : LookupPhase.next e .ready start .missed = (.unrecalled, db) := by
        rw [LookupPhase.next, hrecall]
      rw [step_lookup hnext, List.replicate_succ, run_cons, List.replicate_succ, run_cons,
        step_lookup rfl, step_lookup rfl]
      exact run_loaded 0 hload hmiss

/-- The steps of a lookup, one after another, are the lookup. -/
theorem lookup_alone (db : Database) :
    let σ := (begin db).run e sql params (List.replicate 5 .lookup)
    σ.lookup.result? = some ((DatabaseM.lookup e.place.space e.place.key e.load).run db).1 ∧
      σ.db = ((DatabaseM.lookup e.place.space e.place.key e.load).run db).2 := by
  have hcached := DatabaseM.run_cached? e.place.space e.place.key db
  rw [List.replicate_succ, run_cons]
  cases hget : db.caches.get db.clock e.place.space e.place.key with
  | mk found caches =>
    rw [hget] at hcached
    cases found with
    | some value =>
      have hnext : LookupPhase.next e .ready db .begun =
          (.found value, { db with caches := caches }) := by
        rw [LookupPhase.next, hget]
      rw [begin, step_lookup hnext, run_lookups_of_left rfl, DatabaseM.lookup,
        run_bind_of_ok hcached]
      exact ⟨rfl, rfl⟩
    | none =>
      have hnext : LookupPhase.next e .ready db .begun =
          (.missed, { db with caches := caches }) := by
        rw [LookupPhase.next, hget]
      rw [begin, step_lookup hnext]
      exact run_missed hcached

/-- The steps of a write, one after another, are the write. -/
theorem write_alone (db : Database) :
    let σ := (begin db).run e sql params (List.replicate 3 .write)
    σ.write = .finished ((DatabaseM.executeWrite sql params [e.place]).run db).1 ∧
      σ.db = ((DatabaseM.executeWrite sql params [e.place]).run db).2 := by
  rw [List.replicate_succ, run_cons, List.replicate_succ, run_cons, List.replicate_succ, run_cons]
  cases hexecute : (DatabaseM.execute sql params).run db with
  | mk outcome db₁ =>
    cases outcome with
    | error err =>
      have hnext : WritePhase.next e sql params db .ready = (.finished (.error err), db₁) := by
        rw [WritePhase.next, hexecute]
      have hwrite : (DatabaseM.executeWrite sql params [e.place]).run db = (.error err, db₁) :=
        run_bind_of_error hexecute
      have hstay : WritePhase.next e sql params db₁ (.finished (.error err)) =
          (.finished (.error err), db₁) := rfl
      rw [begin, step_write hnext, step_write hstay, step_write hstay, hwrite]
      exact ⟨rfl, rfl⟩
    | ok result =>
      have hnext : WritePhase.next e sql params db .ready = (.written result, db₁) := by
        rw [WritePhase.next, hexecute]
      have hdrop : (DatabaseM.invalidateAll [e.place]).run db₁ =
          (.ok (), ((DatabaseM.invalidate e.place).run db₁).2) := by
        rw [DatabaseM.invalidateAll]
        exact run_bind_of_ok rfl
      have hwrite : (DatabaseM.executeWrite sql params [e.place]).run db =
          (.ok result, ((DatabaseM.invalidate e.place).run db₁).2) :=
        (run_bind_of_ok hexecute).trans (run_bind_of_ok hdrop)
      have hdropped : WritePhase.next e sql params db₁ (.written result) = (.dropping result,
          { db₁ with caches := db₁.caches.invalidate e.place.space e.place.key }) := rfl
      rw [begin, step_write hnext, step_write hdropped, hwrite, DatabaseM.run_invalidate]
      cases hname : e.place.recordName? with
      | none =>
        rw [step, WritePhase.next, hname]
        exact ⟨rfl, rfl⟩
      | some name =>
        rw [step, WritePhase.next, hname]
        exact ⟨rfl, rfl⟩

/-! ## Both come to an end -/

theorem left_lookup_next_le (lookup : LookupPhase) (write : WritePhase) (db : Database) :
    (lookup.next e write db).1.left ≤ lookup.left - 1 := by
  cases lookup with
  | begun =>
    rw [LookupPhase.next]
    split
    · exact Nat.zero_le _
    · exact Nat.le_refl 4
  | missed =>
    rw [LookupPhase.next]
    split
    · exact Nat.le_add_left 1 2
    · exact Nat.le_refl 3
  | unrecalled => exact Nat.le_refl 2
  | read t => exact Nat.le_refl 1
  | loaded t =>
    rw [LookupPhase.next]
    split <;> exact Nat.zero_le _
  | found value => exact Nat.zero_le _
  | failed err => exact Nat.zero_le _
  | stored t value write => exact Nat.zero_le _

theorem left_write_next_le (write : WritePhase) (db : Database) :
    (write.next e sql params db).1.left ≤ write.left - 1 := by
  cases write with
  | ready =>
    rw [WritePhase.next]
    split
    · exact Nat.le_refl 2
    · exact Nat.zero_le _
  | written result => exact Nat.le_refl 1
  | dropping result =>
    rw [WritePhase.next]
    split <;> exact Nat.zero_le _
  | finished outcome => exact Nat.zero_le _

theorem left_run_le (turns : List Turn) :
    (σ.run e sql params turns).lookup.left ≤ σ.lookup.left - turns.count .lookup ∧
      (σ.run e sql params turns).write.left ≤ σ.write.left - turns.count .write := by
  induction turns generalizing σ with
  | nil => exact ⟨Nat.le_refl _, Nat.le_refl _⟩
  | cons t turns ih =>
    rw [run_cons]
    obtain ⟨hlookup, hwrite⟩ := ih (σ := σ.step e sql params t)
    cases t with
    | lookup =>
      have hnext : (σ.step e sql params .lookup).lookup.left ≤ σ.lookup.left - 1 :=
        left_lookup_next_le σ.lookup σ.write σ.db
      have hother : (σ.step e sql params .lookup).write = σ.write := rfl
      rw [hother] at hwrite
      simp only [List.count_cons_self, List.count_cons_of_ne (by decide : Turn.lookup ≠ Turn.write)]
      omega
    | write =>
      have hnext : (σ.step e sql params .write).write.left ≤ σ.write.left - 1 :=
        left_write_next_le σ.write σ.db
      have hother : (σ.step e sql params .write).lookup = σ.lookup := rfl
      rw [hother] at hlookup
      simp only [List.count_cons_self, List.count_cons_of_ne (by decide : Turn.write ≠ Turn.lookup)]
      omega
    | wait ms =>
      simp only [List.count_cons_of_ne (by simp : Turn.wait ms ≠ Turn.lookup),
        List.count_cons_of_ne (by simp : Turn.wait ms ≠ Turn.write)]
      exact ⟨hlookup, hwrite⟩

theorem result?_isSome_iff (lookup : LookupPhase) :
    lookup.result?.isSome = true ↔ lookup.left = 0 := by
  cases lookup <;> simp [LookupPhase.result?, LookupPhase.left]

/-- Five turns bring a lookup to its end and three a write, however they alternate. -/
theorem done_of_turns (db : Database) {turns : List Turn} (hlookup : 5 ≤ turns.count .lookup)
    (hwrite : 3 ≤ turns.count .write) :
    ((begin db).run e sql params turns).lookup.result?.isSome = true ∧
      ∃ outcome, ((begin db).run e sql params turns).write = .finished outcome := by
  obtain ⟨hlookups, hwrites⟩ := @left_run_le e sql params (begin db) turns
  have hstart : (begin db).lookup.left = 5 ∧ (begin db).write.left = 3 := ⟨rfl, rfl⟩
  refine ⟨(result?_isSome_iff _).2 (by omega), ?_⟩
  have hnone : ((begin db).run e sql params turns).write.left = 0 := by omega
  cases hphase : ((begin db).run e sql params turns).write with
  | finished outcome => exact ⟨outcome, rfl⟩
  | _ => rw [hphase] at hnone; exact absurd hnone (by simp [WritePhase.left])

end Encounter

/-! ## What the caches hold -/

/-- A value stands under a name, fresh or not. -/
def TimedCache.Holds {α : Type} (c : TimedCache α) (name : String) (v : α) : Prop :=
  ∃ entry ∈ c.entries, entry.1 = name ∧ entry.2.value = v

theorem TimedCache.Agrees.of_holds {α : Type} {c : TimedCache α} {right : String → α → Prop}
    (h : c.Agrees right) {name : String} {v : α} (hv : c.Holds name v) : right name v := by
  obtain ⟨entry, hentry, rfl, rfl⟩ := hv
  exact h entry hentry

theorem TimedCache.agrees_holds {α : Type} (c : TimedCache α) : c.Agrees c.Holds :=
  fun entry hentry => ⟨entry, hentry, rfl, rfl⟩

namespace Encounter
variable {e : CachedEntry} {sql : String} {params : Query.Params} {start : Database}
  {σ : Encounter}

/-- Where what was taken comes from: the record that was cached at the start, the shelf at the start,
or the shelf as it is since the write. -/
inductive Origin (e : CachedEntry) (start : Database) (s : Shelf) (write : WritePhase) : Taken → Prop
  | recalled {name : String} {r : Json} {was : WritePhase} (hname : e.recordName? = some name)
      (hheld : start.records.Holds name r) (hwas : was.hasDroppedRecord = false) :
      Origin e start s write ⟨.ok (some r), true, was⟩
  | before {was : WritePhase} (hwas : was.hasWritten = false) :
      Origin e start s write ⟨e.read start.shelf, false, was⟩
  | after {was : WritePhase} (hwrite : write.hasWritten = true) :
      Origin e start s write ⟨e.read s, false, was⟩

/-- What may stand in the entry: the value from the start, unless it has been dropped, or the one that
the lookup has set, unless it has been dropped since. -/
def Stands (start : Database) (e : CachedEntry) (lookup : LookupPhase) (write : WritePhase)
    (v : Json) : Prop :=
  (write.hasDropped = false ∧ (start.caches.cache e.place.space).Holds e.place.key v) ∨
    ∃ t was, lookup = .stored t v was ∧ was.hasDropped = write.hasDropped

/-- What holds after any number of steps. -/
structure Consistent (e : CachedEntry) (start : Database) (σ : Encounter) : Prop where
  distinctCaches : σ.db.caches.Distinct
  distinctRecords : σ.db.records.Distinct
  shelf : σ.write.hasWritten = false → σ.db.shelf = start.shelf
  records : σ.lookup.recalls = true → σ.db.records.Agrees fun name r =>
    e.recordName? = some name → start.records.Holds name r ∧ σ.write.hasDroppedRecord = false
  taken : ∀ t, σ.lookup.taken? = some t → Origin e start σ.db.shelf σ.write t
  value : ∀ t v was, σ.lookup = .stored t v was → e.value t.source = .ok v
  entry : σ.db.caches.Agrees fun ns key v =>
    ns = e.place.space → key = e.place.key → Stands start e σ.lookup σ.write v

theorem consistent_begin (hcaches : start.caches.Distinct) (hrecords : start.records.Distinct) :
    Consistent e start (begin start) where
  distinctCaches := hcaches
  distinctRecords := hrecords
  shelf _ := rfl
  records _ := (start.records.agrees_holds).mono fun _ _ h _ => ⟨h, rfl⟩
  taken _ h := nomatch h
  value _ _ _ h := absurd h (by simp [begin])
  entry ns := ((start.caches.cache ns).agrees_holds).mono fun key v h hns hkey => by
    subst hns hkey
    exact .inl ⟨rfl, h⟩

/-- As long as the lookup has set nothing, only the value from the start can stand there. -/
theorem Stands.of_unset {lookup : LookupPhase} {write : WritePhase} {v : Json}
    (h : Stands start e lookup write v) (hunset : ∀ t v was, lookup ≠ .stored t v was)
    (lookup' : LookupPhase) : Stands start e lookup' write v := by
  rcases h with hstart | ⟨t, was, hstored, -⟩
  · exact .inl hstart
  · exact absurd hstored (hunset t v was)

theorem Stands.of_hasDropped {lookup : LookupPhase} {write write' : WritePhase} {v : Json}
    (h : Stands start e lookup write v) (hsame : write'.hasDropped = write.hasDropped) :
    Stands start e lookup write' v := by
  rwa [Stands, hsame]

theorem Origin.mono {s s' : Shelf} {write write' : WritePhase} {t : Taken}
    (h : Origin e start s write t)
    (hkept : write.hasWritten = true → s' = s ∧ write'.hasWritten = true) :
    Origin e start s' write' t := by
  cases h with
  | recalled hname hheld hwas => exact .recalled hname hheld hwas
  | before hwas => exact .before hwas
  | after hwrite =>
    obtain ⟨rfl, hwritten⟩ := hkept hwrite
    exact .after hwritten

namespace Consistent
variable {db : Database} {write : WritePhase}

/-- A step that sets nothing keeps the entry as it was. -/
theorem stands (h : Consistent e start σ) (hunset : ∀ t v was, σ.lookup ≠ .stored t v was)
    (lookup' : LookupPhase) : σ.db.caches.Agrees fun ns key v =>
      ns = e.place.space → key = e.place.key → Stands start e lookup' σ.write v :=
  fun ns => (h.entry ns).mono fun _ _ hv hns hkey => (hv hns hkey).of_unset hunset lookup'

/-! ### Steps of the lookup -/

theorem step_begun (h : Consistent e start ⟨db, .begun, write⟩) :
    Consistent e start (step e sql params ⟨db, .begun, write⟩ .lookup) := by
  have hdistinct := h.distinctCaches.get db.clock e.place.space e.place.key
  have hstands := fun lookup' => (h.stands (fun _ _ _ => by simp) lookup').get db.clock
    e.place.space e.place.key
  cases hget : db.caches.get db.clock e.place.space e.place.key with
  | mk found caches =>
    rw [hget] at hdistinct
    simp only [hget] at hstands
    cases found with
    | some value =>
      have hnext : LookupPhase.next e write db .begun =
          (.found value, { db with caches := caches }) := by
        rw [LookupPhase.next, hget]
      rw [step_lookup hnext]
      exact ⟨hdistinct, h.distinctRecords, h.shelf, fun h => (nomatch h), fun _ h => (nomatch h),
        fun _ _ _ h => (nomatch h), hstands _⟩
    | none =>
      have hnext : LookupPhase.next e write db .begun = (.missed, { db with caches := caches }) := by
        rw [LookupPhase.next, hget]
      rw [step_lookup hnext]
      exact ⟨hdistinct, h.distinctRecords, h.shelf, h.records, fun _ h => (nomatch h),
        fun _ _ _ h => (nomatch h), hstands _⟩

theorem step_missed (h : Consistent e start ⟨db, .missed, write⟩) :
    Consistent e start (step e sql params ⟨db, .missed, write⟩ .lookup) := by
  have hstands := h.stands fun _ _ _ => by simp
  cases hname : e.recordName? with
  | none =>
    have hnext : LookupPhase.next e write db .missed = (.unrecalled, db) := by
      rw [LookupPhase.next, CachedEntry.heldRecord_of_none hname]
    rw [step_lookup hnext]
    exact ⟨h.distinctCaches, h.distinctRecords, h.shelf, fun h => (nomatch h), fun _ h => (nomatch h),
        fun _ _ _ h => (nomatch h), hstands _⟩
  | some name =>
    have hdistinct := h.distinctRecords.get db.clock name
    cases hget : db.records.get db.clock name with
    | mk found records =>
      rw [hget] at hdistinct
      cases found with
      | none =>
        have hnext : LookupPhase.next e write db .missed =
            (.unrecalled, { db with records := records }) := by
          rw [LookupPhase.next, CachedEntry.heldRecord_of_get hname hget]
        rw [step_lookup hnext]
        exact ⟨h.distinctCaches, hdistinct, h.shelf, fun h => (nomatch h), fun _ h => (nomatch h),
        fun _ _ _ h => (nomatch h), hstands _⟩
      | some r =>
        have hnext : LookupPhase.next e write db .missed =
            (.loaded ⟨.ok (some r), true, write⟩, { db with records := records }) := by
          rw [LookupPhase.next, CachedEntry.heldRecord_of_get hname hget]
        have hheld := (h.records rfl).right_of_get (show (db.records.get db.clock name).1 = some r by
          rw [hget]) hname
        rw [step_lookup hnext]
        refine ⟨h.distinctCaches, hdistinct, h.shelf, fun h => (nomatch h), ?_,
          fun _ _ _ h => (nomatch h), hstands _⟩
        rintro t ⟨⟩
        exact .recalled hname hheld.1 hheld.2

theorem step_unrecalled (h : Consistent e start ⟨db, .unrecalled, write⟩) :
    Consistent e start (step e sql params ⟨db, .unrecalled, write⟩ .lookup) := by
  have hnext : LookupPhase.next e write db .unrecalled =
      (.read ⟨e.read db.shelf, false, write⟩, db) := rfl
  rw [step_lookup hnext]
  refine ⟨h.distinctCaches, h.distinctRecords, h.shelf, fun h => (nomatch h), ?_,
    fun _ _ _ h => (nomatch h), h.stands (fun _ _ _ => by simp) _⟩
  rintro t ⟨⟩
  cases hwritten : write.hasWritten with
  | true => exact .after hwritten
  | false =>
    have hshelf : db.shelf = start.shelf := h.shelf hwritten
    rw [hshelf]
    exact .before hwritten

theorem step_read {t : Taken} (h : Consistent e start ⟨db, .read t, write⟩) :
    Consistent e start (step e sql params ⟨db, .read t, write⟩ .lookup) := by
  have hnext : LookupPhase.next e write db (.read t) = (.loaded t, e.keep db t.source) := rfl
  rw [step_lookup hnext]
  refine ⟨?_, e.distinct_keep h.distinctRecords t.source, ?_, fun h => (nomatch h), ?_,
    fun _ _ _ h => (nomatch h), ?_⟩
  · rw [e.caches_keep]
    exact h.distinctCaches
  · rw [e.shelf_keep]
    exact h.shelf
  · rw [e.shelf_keep]
    exact h.taken
  · rw [e.caches_keep]
    exact h.stands (fun _ _ _ => by simp) _

theorem step_loaded {t : Taken} (h : Consistent e start ⟨db, .loaded t, write⟩) :
    Consistent e start (step e sql params ⟨db, .loaded t, write⟩ .lookup) := by
  have hstands := h.stands fun _ _ _ => by simp
  cases hvalue : e.value t.source with
  | error err =>
    have hnext : LookupPhase.next e write db (.loaded t) = (.failed err, db) := by
      rw [LookupPhase.next, hvalue]
    rw [step_lookup hnext]
    exact ⟨h.distinctCaches, h.distinctRecords, h.shelf, fun h => (nomatch h),
      fun _ h => (nomatch h), fun _ _ _ h => (nomatch h), hstands _⟩
  | ok value =>
    have hnext : LookupPhase.next e write db (.loaded t) = (.stored t value write,
        { db with caches := db.caches.set db.clock e.place.space e.place.key value }) := by
      rw [LookupPhase.next, hvalue]
    rw [step_lookup hnext]
    refine ⟨h.distinctCaches.set _ _ _ _, h.distinctRecords, h.shelf, fun h => (nomatch h), h.taken,
      ?_, (hstands _).set (fun _ _ => .inr ⟨t, write, rfl, rfl⟩) _⟩
    rintro t v was ⟨⟩
    exact hvalue

/-- Every step of the lookup. -/
theorem after_lookup (h : Consistent e start σ) :
    Consistent e start (σ.step e sql params .lookup) := by
  obtain ⟨db, lookup, write⟩ := σ
  cases lookup with
  | begun => exact h.step_begun
  | missed => exact h.step_missed
  | unrecalled => exact h.step_unrecalled
  | read t => exact h.step_read
  | loaded t => exact h.step_loaded
  | found value => exact h
  | failed err => exact h
  | stored t value write => exact h

/-! ### Steps of the write -/

variable {lookup : LookupPhase}

theorem step_ready (h : Consistent e start ⟨db, lookup, .ready⟩) :
    Consistent e start (step e sql params ⟨db, lookup, .ready⟩ .write) := by
  cases hrun : (DatabaseM.execute sql params).run db with
  | mk outcome db₁ =>
    obtain ⟨s', rfl⟩ : ∃ s', db₁ = { db with shelf := s' } := ⟨_, (Prod.mk.inj hrun).2.symm⟩
    have hgoes : ∀ write : WritePhase, write.hasWritten = true → write.hasDropped = false →
        write.hasDroppedRecord = false → Consistent e start ⟨{ db with shelf := s' }, lookup, write⟩ := by
      intro write hwritten hdropped hrecord
      refine ⟨h.distinctCaches, h.distinctRecords, fun hnot => absurd hwritten (by simp [hnot]), ?_,
        fun t ht => (h.taken t ht).mono fun hready => (nomatch hready), h.value, fun ns =>
          (h.entry ns).mono fun key v hv hns hkey => (hv hns hkey).of_hasDropped hdropped⟩
      rw [hrecord]
      exact h.records
    cases outcome with
    | ok result =>
      have hnext : WritePhase.next e sql params db .ready = (.written result, { db with shelf := s' }) := by
        rw [WritePhase.next, hrun]
      rw [step_write hnext]
      exact hgoes _ rfl rfl rfl
    | error err =>
      have hnext : WritePhase.next e sql params db .ready =
          (.finished (.error err), { db with shelf := s' }) := by
        rw [WritePhase.next, hrun]
      rw [step_write hnext]
      exact hgoes _ rfl rfl rfl

theorem step_written {result : Query.Result} (h : Consistent e start ⟨db, lookup, .written result⟩) :
    Consistent e start (step e sql params ⟨db, lookup, .written result⟩ .write) := by
  have hnext : WritePhase.next e sql params db (.written result) = (.dropping result,
      { db with caches := db.caches.invalidate e.place.space e.place.key }) := rfl
  rw [step_write hnext]
  refine ⟨h.distinctCaches.invalidate _ _, h.distinctRecords, fun h => (nomatch h), h.records,
    fun t ht => (h.taken t ht).mono fun _ => ⟨rfl, rfl⟩, h.value,
    h.entry.invalidate h.distinctCaches fun ns key v hne _ hns hkey => ?_⟩
  exact absurd (by rw [hns, hkey]) hne

theorem step_dropping {result : Query.Result}
    (h : Consistent e start ⟨db, lookup, .dropping result⟩) :
    Consistent e start (step e sql params ⟨db, lookup, .dropping result⟩ .write) := by
  have hkept : ∀ db' : Database, db'.shelf = db.shelf → db'.caches = db.caches →
      db'.records.Distinct → (db'.records.Agrees fun name _ => e.recordName? ≠ some name) →
      Consistent e start ⟨db', lookup, .finished (.ok result)⟩ := by
    intro db' hshelf hcaches hdistinct hrecords
    refine ⟨?_, hdistinct, fun h => (nomatch h), fun _ => hrecords.mono fun _ _ hne hname =>
      absurd hname hne, fun t ht => ?_, h.value, ?_⟩
    · rw [hcaches]
      exact h.distinctCaches
    · exact (h.taken t ht).mono fun _ => ⟨hshelf, rfl⟩
    · rw [hcaches]
      exact fun ns => (h.entry ns).mono fun _ _ hv hns hkey => (hv hns hkey).of_hasDropped rfl
  cases hplace : e.place.recordName? with
  | none =>
    have hnext : WritePhase.next e sql params db (.dropping result) =
        (.finished (.ok result), db) := by
      rw [WritePhase.next, hplace]
    rw [step_write hnext]
    refine hkept db rfl rfl h.distinctRecords fun entry _ hname => ?_
    exact absurd (e.dropped _ hname) (by simp [hplace])
  | some dropped =>
    have hnext : WritePhase.next e sql params db (.dropping result) = (.finished (.ok result),
        { db with records := (db.records.invalidate dropped).2 }) := by
      rw [WritePhase.next, hplace]
    rw [step_write hnext]
    refine hkept { db with records := (db.records.invalidate dropped).2 } rfl rfl
      (h.distinctRecords.invalidate _) ?_
    refine TimedCache.Agrees.invalidate db.records.agrees_holds h.distinctRecords ?_
    intro name v hne _ hname
    exact hne (Option.some.inj ((e.dropped name hname).symm.trans hplace))

/-- Every step of the write. -/
theorem after_write (h : Consistent e start σ) :
    Consistent e start (σ.step e sql params .write) := by
  obtain ⟨db, lookup, write⟩ := σ
  cases write with
  | ready => exact h.step_ready
  | written result => exact h.step_written
  | dropping result => exact h.step_dropping
  | finished outcome => exact h

/-- The clock runs and sweeps may remove what is too old. -/
theorem after_wait (h : Consistent e start σ) (ms : ℕ) :
    Consistent e start (σ.step e sql params (.wait ms)) := by
  have hshelf := σ.db.shelf_advance ms
  refine ⟨Database.distinct_caches_advance h.distinctCaches ms,
    Database.distinct_records_advance h.distinctRecords ms, fun hready => ?_,
    fun hrecalls => Database.agrees_records_advance (h.records hrecalls) ms, fun t ht => ?_, h.value,
    Database.agrees_caches_advance h.entry ms⟩
  · exact hshelf.trans (h.shelf hready)
  · exact (h.taken t ht).mono fun hwritten => ⟨hshelf, hwritten⟩

theorem run (h : Consistent e start σ) (turns : List Turn) :
    Consistent e start (σ.run e sql params turns) := by
  induction turns generalizing σ with
  | nil => exact h
  | cons t turns ih =>
    rw [run_cons]
    cases t with
    | lookup => exact ih h.after_lookup
    | write => exact ih h.after_write
    | wait ms => exact ih (h.after_wait ms)

end Consistent

end Encounter

/-! ## Once both are done -/

/-- What a database gives for an entry, from the shelf or from the cache of records. -/
def CachedEntry.Offers (e : CachedEntry) (db : Database) (v : Json) : Prop :=
  e.answer db.shelf = .ok v ∨
    ∃ name r, e.recordName? = some name ∧ db.records.Holds name r ∧ e.value (.ok (some r)) = .ok v

namespace Encounter
variable {start : Database}

/-- The value has been set by a lookup that was overtaken: taken before the write, set after the write
had dropped the entry. -/
def Overtaken (σ : Encounter) (v : Json) : Prop :=
  ∃ t was, σ.lookup = .stored t v was ∧ t.early = true ∧ was.hasDropped = true

/-- Once the write is done, what stands in the entry is what would now be loaded. If the write has
succeeded it may also be what a lookup has set that was overtaken, and that is what the database gave
at the start. If it has failed and so dropped nothing, it may be what stood there at the start or what
the database gave then. -/
theorem entry_beside_write (e : CachedEntry) (sql : String) (params : Query.Params)
    (hcaches : start.caches.Distinct) (hrecords : start.records.Distinct) (turns : List Turn)
    {outcome : Except Error Query.Result}
    (hdone : ((begin start).run e sql params turns).write = .finished outcome) {v : Json}
    (hv : (((begin start).run e sql params turns).db.caches.cache e.place.space).Holds
      e.place.key v) :
    e.answer ((begin start).run e sql params turns).db.shelf = .ok v ∨
    ((∃ result, outcome = .ok result) ∧ e.Offers start v ∧
      ((begin start).run e sql params turns).Overtaken v) ∨
    ((∃ err, outcome = .error err) ∧
      (e.Offers start v ∨ (start.caches.cache e.place.space).Holds e.place.key v)) := by
  have h : Consistent e start ((begin start).run e sql params turns) :=
    (consistent_begin hcaches hrecords).run turns
  generalize (begin start).run e sql params turns = σ at h hdone hv ⊢
  have hstands := (h.entry e.place.space).of_holds hv rfl rfl
  rw [hdone] at hstands
  rcases hstands with ⟨hkept, hstart⟩ | ⟨t, was, hstored, hwas⟩
  · -- The value from the start is still there, so the write has failed.
    cases outcome with
    | ok result => exact absurd hkept (by simp [WritePhase.hasDropped])
    | error err => exact .inr (.inr ⟨⟨err, rfl⟩, .inr hstart⟩)
  · have hvalue := h.value t v was hstored
    have horigin := h.taken t (by rw [hstored]; rfl)
    have hold : e.answer σ.db.shelf = .ok v ∨ (e.Offers start v ∧ t.early = true) := by
      cases horigin with
      | recalled hname hheld hwas =>
        exact .inr ⟨.inr ⟨_, _, hname, hheld, hvalue⟩, by simp [Taken.early, hwas]⟩
      | before hwas => exact .inr ⟨.inl hvalue, by simp [Taken.early, hwas]⟩
      | after => exact .inl hvalue
    rcases hold with hfresh | ⟨hoffers, hearly⟩
    · exact .inl hfresh
    · cases outcome with
      | ok result =>
        exact .inr (.inl ⟨⟨result, rfl⟩, hoffers, t, was, hstored, hearly, hwas⟩)
      | error err => exact .inr (.inr ⟨⟨err, rfl⟩, .inl hoffers⟩)

/-! ### A role that is set while it is looked up -/

/-- The user has the role 10. -/
def promoted : Database :=
  ((DatabaseM.setUserRole 100 42 10).run (.create Settings.default 1 1 none)).2

def roleText : String :=
  "INSERT INTO roles_100 (user_id, role_id) VALUES (?, ?) " ++
    "ON DUPLICATE KEY UPDATE role_id = VALUES(role_id)"

def roleParams : Query.Params := .positional [.ofInt64 42, .ofInt64 80]

/-- The role is loaded, then the role 80 is written, and then the loaded one is set. -/
def lateTurns : List Turn := .replicate 4 .lookup ++ .replicate 3 .write ++ [.lookup]

def afterPromotion : Encounter := (begin promoted).run (.role 100 42) roleText roleParams lateTurns

theorem distinct_promoted : promoted.caches.Distinct ∧ promoted.records.Distinct := by
  have hcreated := Database.standard_create Settings.default.dataDirectory 1 1 none
  have hstandard : promoted.Standard := by
    unfold promoted DatabaseM.setUserRole
    exact (DatabaseM.moves_executeWrite _ _ _).keeps (fun _ _ => Database.Step.standard) hcreated
  exact ⟨hstandard.caches, hstandard.records⟩

theorem run_afterPromotion : afterPromotion.lookup.result?.isSome = true ∧
    afterPromotion.write.hasDroppedRecord = true ∧
    (afterPromotion.db.caches.cache .userRoles).entries.map
      (fun entry => (entry.1, entry.2.value.toInt64?)) = [("100_42", some 10)] ∧
    ((CachedEntry.role 100 42).answer afterPromotion.db.shelf).toOption.bind Json.toInt64? =
      some 80 := by
  decide +kernel

/-- Both are done, the role 10 stands in the entry and the role 80 would be loaded. -/
theorem afterPromotion_stale : ∃ result v,
    afterPromotion.write = .finished (.ok result) ∧
    (afterPromotion.db.caches.cache .userRoles).Holds (Invalidation.role 100 42).key v ∧
    (CachedEntry.role 100 42).answer afterPromotion.db.shelf ≠ .ok v := by
  obtain ⟨-, hwrite, hentries, hanswer⟩ := run_afterPromotion
  obtain ⟨result, hfinished⟩ := WritePhase.succeeded_of_hasDroppedRecord hwrite
  have hkey : (Invalidation.role 100 42).key = "100_42" := by decide
  have hmem := List.mem_singleton_self ("100_42", some (10 : Int64))
  rw [← hentries, ← hkey] at hmem
  obtain ⟨entry, hentry, hvalue⟩ := List.mem_map.1 hmem
  obtain ⟨hname, hten⟩ := Prod.mk.inj hvalue
  refine ⟨result, entry.2.value, hfinished, ⟨entry, hentry, hname, rfl⟩, fun hfresh => ?_⟩
  rw [hfresh] at hanswer
  exact absurd (hten.symm.trans hanswer) (by decide)

/-- The lookup has been overtaken. -/
theorem entry_beside_promotion : ∃ v,
    (afterPromotion.db.caches.cache .userRoles).Holds (Invalidation.role 100 42).key v ∧
    (CachedEntry.role 100 42).answer afterPromotion.db.shelf ≠ .ok v ∧
    (CachedEntry.role 100 42).Offers promoted v ∧ afterPromotion.Overtaken v := by
  obtain ⟨result, v, hwrite, hv, hstale⟩ := afterPromotion_stale
  obtain ⟨hcaches, hrecords⟩ := distinct_promoted
  rcases entry_beside_write (.role 100 42) roleText roleParams hcaches hrecords lateTurns
    hwrite hv with
    hfresh | ⟨-, hoffers, hovertaken⟩ | ⟨⟨err, herr⟩, -⟩
  · exact absurd hfresh hstale
  · exact ⟨v, hv, hstale, hoffers, hovertaken⟩
  · exact nomatch herr

/-- A lookup beside a write can leave a value behind that would no longer be loaded. -/
theorem stale_role_left_behind : ¬∀ (e : CachedEntry) (start : Database) (sql : String)
    (params : Query.Params) (turns : List Turn) (v : Json), start.caches.Distinct →
    start.records.Distinct →
    ((begin start).run e sql params turns).lookup.result?.isSome = true →
    (∃ result, ((begin start).run e sql params turns).write = .finished (.ok result)) →
    (((begin start).run e sql params turns).db.caches.cache e.place.space).Holds e.place.key v →
    e.answer ((begin start).run e sql params turns).db.shelf = .ok v := by
  intro hfresh
  obtain ⟨result, v, hwrite, hv, hstale⟩ := afterPromotion_stale
  obtain ⟨hcaches, hrecords⟩ := distinct_promoted
  exact hstale (hfresh (.role 100 42) promoted roleText roleParams lateTurns v hcaches hrecords
    run_afterPromotion.1 ⟨result, hwrite⟩ hv)

end Encounter

end RecordShelf

import RecordShelf.Database.Bans
import RecordShelf.Database.Nicknames
import RecordShelf.Proofs.Cache.TimedCache
import RecordShelf.Proofs.Query.Delete

/-!
# Lookups of what was dropped

A write through the caches drops the values that it makes stale, and a value that is in no cache is
loaded anew: the next lookup gives what the shelf holds.
-/

namespace RecordShelf

namespace DatabaseM
variable {db db' : Database}

theorem run_getThe (db : Database) : (getThe Database : DatabaseM Database).run db = (.ok db, db) :=
  rfl

theorem run_onShelf {α : Type} (act : ShelfM α) (db : Database) :
    (onShelf act).run db = ((act.run db.shelf).1, { db with shelf := (act.run db.shelf).2 }) := rfl

section
variable {α : Type} {act : DatabaseM α} {handler : Error → DatabaseM α}

theorem run_tryCatch_of_ok {a : α} (h : act.run db = (.ok a, db')) :
    (tryCatch act handler).run db = (.ok a, db') := by
  have happly : act db = (.ok a, db') := h
  change (ExceptT.tryCatch act handler).run db = _
  simp [ExceptT.tryCatch, ExceptT.run, ExceptT.mk, bind, StateT.bind, happly]
  rfl

theorem run_tryCatch_of_error {e : Error} (h : act.run db = (.error e, db')) :
    (tryCatch act handler).run db = (handler e).run db' := by
  have happly : act db = (.error e, db') := h
  change (ExceptT.tryCatch act handler).run db = _
  simp [ExceptT.tryCatch, ExceptT.run, ExceptT.mk, bind, StateT.bind, happly]

end

/-! ## Writes -/

/-- A database in which neither a value nor the record behind it is cached. -/
structure Dropped (db : Database) (i : Invalidation) : Prop where
  value : (db.caches.cache i.space).entries.get? i.key = none
  record : ∀ name ∈ i.recordName?, db.records.entries.get? name = none

theorem run_invalidate (i : Invalidation) : (invalidate i).run db = (.ok (), { db with
    caches := db.caches.invalidate i.space i.key
    records := match i.recordName? with
      | some name => (db.records.invalidate name).2
      | none => db.records }) := rfl

theorem dropped_invalidate (hcaches : db.caches.Distinct) (hrecords : db.records.Distinct)
    (i : Invalidation) :
    ∃ caches records, (invalidate i).run db =
      (.ok (), { db with caches := caches, records := records }) ∧
      Dropped { db with caches := caches, records := records } i := by
  cases hname : i.recordName? with
  | none =>
    refine ⟨db.caches.invalidate i.space i.key, db.records, ?_,
      Caches.absent_invalidate hcaches i.space i.key, ?_⟩
    · rw [run_invalidate, hname]
    · rw [hname]
      exact fun name hmem => absurd hmem (by simp)
  | some name =>
    refine ⟨db.caches.invalidate i.space i.key, (db.records.invalidate name).2, ?_,
      Caches.absent_invalidate hcaches i.space i.key, ?_⟩
    · rw [run_invalidate, hname]
    · rw [hname]
      rintro other hmem
      obtain rfl := Option.some.inj hmem
      exact TimedCache.absent_invalidate hrecords _

section
variable {sql : String} {params : Query.Params} {i : Invalidation} {result : Query.Result}

end

/-! ## Lookups -/

/-- What the cache has no answer for is loaded. -/
theorem fst_run_lookup {ns : Namespace} {key : String}
    (h : (db.caches.get db.clock ns key).1 = none) (load : DatabaseM Json) :
    ((lookup ns key load).run db).1 =
      (load.run { db with caches := (db.caches.get db.clock ns key).2 }).1 := by
  have hmiss : (cached? ns key).run db =
      (.ok none, { db with caches := (db.caches.get db.clock ns key).2 }) := by
    rw [← h]
    rfl
  rw [lookup, run_bind_of_ok hmiss]
  cases hload : load.run { db with caches := (db.caches.get db.clock ns key).2 } with
  | mk result db₁ =>
    cases result with
    | error e => rw [run_bind_of_error hload]
    | ok value => rw [run_bind_of_ok hload]; rfl

/-- The role that a record gives, zero if it gives none. -/
def roleOf (r : Option Record) : Int64 :=
  ((r.bind (·.get? "role_id")).bind Json.toInt64?).getD 0

theorem toInt64?_ofInt64 (n : Int64) : (Json.ofInt64 n).toInt64? = some n :=
  JsonNumber.toInt64?_ofInt64 n

end DatabaseM

end RecordShelf

import RecordShelf.Database.Basic

/-!
# Lookups through the caches

A lookup takes the cached value or loads it and caches it, whatever it is, so that the absence of a
record is cached as well. A failed load caches nothing. A write through the caches drops the values
that it makes stale, once it has succeeded.
-/

namespace RecordShelf.DatabaseM

/-- The fresh value in a namespace. -/
def cached? (ns : Namespace) (key : String) : DatabaseM (Option Json) := do
  let db ← getThe Database
  let (value, caches) := db.caches.get db.clock ns key
  set { db with caches := caches }
  return value

def cache (ns : Namespace) (key : String) (value : Json) : DatabaseM Unit :=
  modifyThe Database fun db => { db with caches := db.caches.set db.clock ns key value }

/-- The cached value, or the loaded one, which is then cached. -/
def lookup (ns : Namespace) (key : String) (load : DatabaseM Json) : DatabaseM Json := do
  match ← cached? ns key with
  | some value => return value
  | none =>
    let value ← load
    cache ns key value
    return value

/-! ## Many lookups at once -/

section Batch
variable {κ : Type}

/-- Each key with its cached value, if it has one. -/
def cachedAll (ns : Namespace) (name : κ → String) : List κ → DatabaseM (List (κ × Option Json))
  | [] => return []
  | key :: rest => do
    let value ← cached? ns (name key)
    return (key, value) :: (← cachedAll ns name rest)

/-- Loads and caches the values of the keys that have none yet. -/
def loadMissing (ns : Namespace) (name : κ → String) (load : κ → DatabaseM Json) :
    List (κ × Option Json) → DatabaseM (List (κ × Json))
  | [] => return []
  | (key, some value) :: rest => return (key, value) :: (← loadMissing ns name load rest)
  | (key, none) :: rest => do
    let value ← load key
    cache ns (name key) value
    return (key, value) :: (← loadMissing ns name load rest)

/-- The values of distinct keys: all cached ones are found first, the others are loaded in order. A
key that stands twice is looked up once. -/
def lookupAll [BEq κ] (ns : Namespace) (name : κ → String) (keys : List κ)
    (load : κ → DatabaseM Json) : DatabaseM (List (κ × Json)) := do
  loadMissing ns name load (← cachedAll ns name keys.eraseDups)

end Batch

/-! ## Records -/

/-- The record that the cache of records holds under a name. -/
def cachedRecord? (name : String) : DatabaseM (Option Json) := do
  let db ← getThe Database
  let (value, records) := db.records.get db.clock name
  set { db with records := records }
  return value

def cacheRecord (name : String) (value : Json) : DatabaseM Unit :=
  modifyThe Database fun db => { db with records := db.records.set db.clock name value }

/-- A record through the cache of records; the absence of a record is not cached. -/
def record? (name table key : String) : DatabaseM (Option Json) := do
  match ← cachedRecord? name with
  | some value => return some value
  | none =>
    match ← onShelf (ShelfM.get table key) with
    | none => return none
    | some r =>
      cacheRecord name (.object r)
      return some (.object r)

/-! ## Writes -/

/-- Drops a cached value and the record behind it. -/
def invalidate (i : Invalidation) : DatabaseM Unit :=
  modifyThe Database fun db =>
    let records :=
      match i.recordName? with
      | some name => (db.records.invalidate name).2
      | none => db.records
    { db with caches := db.caches.invalidate i.space i.key, records := records }

def invalidateAll : List Invalidation → DatabaseM Unit
  | [] => return ()
  | i :: rest => do
    invalidate i
    invalidateAll rest

/-- Carries out a write and drops what it makes stale. -/
def executeWrite (sql : String) (params : Query.Params) (stale : List Invalidation) :
    DatabaseM Query.Result := do
  let result ← execute sql params
  invalidateAll stale
  return result

end RecordShelf.DatabaseM

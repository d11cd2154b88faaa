import RecordShelf.Cache.Namespace
import RecordShelf.Error
import RecordShelf.Named

/-!
# Settings

The settings of a database, with defaults for all of them. `Settings.check` refuses those that the
caches cannot run with and tables whose names are no names.
-/

namespace RecordShelf

structure CacheSettings where
  /-- Milliseconds between sweeps. -/
  sweepInterval : Nat
  /-- The bound of each namespace. -/
  maxEntries : Nat
  /-- Times to live in milliseconds that replace the built-in ones. -/
  ttl : List (Namespace × Nat)
  deriving DecidableEq

namespace CacheSettings

def default : CacheSettings := ⟨30000, 1000, []⟩

/-- The time to live of a namespace. -/
def ttlOf (s : CacheSettings) (ns : Namespace) : Nat :=
  match s.ttl.find? fun entry => entry.1 = ns with
  | some entry => entry.2
  | none => ns.defaultTtl

end CacheSettings

/-- The settings of lookups: how long records are kept beside the caches, and how many are loaded
at once. -/
structure LookupSettings where
  recordTtl : Nat
  recordSweepInterval : Nat
  batchConcurrency : Nat
  deriving DecidableEq

def LookupSettings.default : LookupSettings := ⟨30000, 30000, 10⟩

structure Settings where
  dataDirectory : String
  /-- Tables that are made when the database is opened. -/
  tables : List String
  /-- Fields that identify a record, in order. -/
  identityFields : List String
  /-- Identity fields of single tables, looked at first. -/
  primaryKeys : Named String
  /-- Tables whose keys come from a counter. -/
  autoIncrement : List String
  booleanFields : List String
  dualFields : List String
  cache : CacheSettings
  lookup : LookupSettings
  deriving DecidableEq

namespace Settings

def default : Settings where
  dataDirectory := "./data"
  tables :=
    ["conference", "roles", "nicknames", "userinfo", "blockedusers", "pools", "custom_roles",
      "sysbanned", "sysadmins", "tech", "agents", "testers", "vip_users", "user_balances",
      "user_dailies", "casino_games", "casino_bets", "tickets", "report_banned",
      "user_reputation", "reputation_limits"]
  identityFields := ["id", "userid", "user_id", "conference_id"]
  primaryKeys := []
  autoIncrement := ["tickets"]
  booleanFields := ["status"]
  dualFields := ["user_id", "role_id"]
  cache := .default
  lookup := .default

def primaryKey? (s : Settings) (table : String) : Option String := s.primaryKeys.get? table

def isAutoIncrement (s : Settings) (table : String) : Bool := s.autoIncrement.contains table

/-- The first setting that the caches cannot run with. -/
def problem? (s : Settings) : Option ConfigProblem :=
  if s.cache.maxEntries = 0 then some .noEntries
  else if s.lookup.batchConcurrency = 0 then some .noConcurrency
  else if s.cache.sweepInterval = 0 ∨ s.lookup.recordSweepInterval = 0 then some .noInterval
  else none

def checkTables : List String → Except Error Unit
  | [] => .ok ()
  | table :: rest =>
    match Names.check .table table with
    | .error fault => .error (.name fault)
    | .ok () => checkTables rest

def check (s : Settings) : Except Error Unit :=
  match s.problem? with
  | some problem => .error (.config problem)
  | none => checkTables s.tables

end Settings

end RecordShelf

import RecordShelf.Number.Decimal

/-!
# Namespaces of the cache

Each kind of cached value has a namespace with a time to live of its own. A value of several parts
is named by its parts, joined by underscores.
-/

namespace RecordShelf

inductive Namespace where
  | userRoles
  | chatSettings
  | banLists
  | conversationMembers
  | vkUsers
  | userNicknames
  | vipStatuses
  | tableExists
  | userStats
  | marriages
  | commandAccess
  | commandPriorities
  deriving DecidableEq, Repr

namespace Namespace

def all : List Namespace :=
  [.userRoles, .chatSettings, .banLists, .conversationMembers, .vkUsers, .userNicknames,
    .vipStatuses, .tableExists, .userStats, .marriages, .commandAccess, .commandPriorities]

def name : Namespace → String
  | .userRoles => "userRoles"
  | .chatSettings => "chatSettings"
  | .banLists => "banLists"
  | .conversationMembers => "conversationMembers"
  | .vkUsers => "vkUsers"
  | .userNicknames => "userNicknames"
  | .vipStatuses => "vipStatuses"
  | .tableExists => "tableExists"
  | .userStats => "userStats"
  | .marriages => "marriages"
  | .commandAccess => "commandAccess"
  | .commandPriorities => "commandPriorities"

def ofName? (name : String) : Option Namespace := all.find? fun ns => ns.name == name

theorem ofName?_name (ns : Namespace) : ofName? ns.name = some ns := by cases ns <;> decide

/-- The built-in time to live in minutes. -/
def minutes : Namespace → Nat
  | .userRoles => 5
  | .chatSettings => 10
  | .banLists => 2
  | .conversationMembers => 15
  | .vkUsers => 30
  | .userNicknames => 10
  | .vipStatuses => 20
  | .tableExists => 60
  | .userStats => 3
  | .marriages => 30
  | .commandAccess => 5
  | .commandPriorities => 5

/-- The built-in time to live in milliseconds. -/
def defaultTtl (ns : Namespace) : Nat := ns.minutes * 60000

/-- The place among all namespaces. -/
def index (ns : Namespace) : Fin 12 := ⟨ns.ctorIdx, by cases ns <;> decide⟩

theorem index_injective {a b : Namespace} (h : a.index = b.index) : a = b := by
  revert h
  cases a <;> cases b <;> decide

end Namespace

namespace CacheKey

/-- Parts joined by underscores. -/
def compose (parts : List String) : String := "_".intercalate parts

def ofInt (n : Int) : String := String.ofList (decimalInt n)

def ofPair (a b : Int) : String := compose [ofInt a, ofInt b]

end CacheKey

/-- One cached value that a write makes stale. -/
structure Invalidation where
  space : Namespace
  key : String
  deriving DecidableEq

/-- The name under which the cache of records holds the record behind a cached value. -/
def Invalidation.recordName? (i : Invalidation) : Option String :=
  match i.space with
  | .userRoles => some ("role_" ++ i.key)
  | .chatSettings => some ("settings_" ++ i.key)
  | _ => none

end RecordShelf

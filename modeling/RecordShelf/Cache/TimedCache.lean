import RecordShelf.Named

/-!
# Caches with a time to live

A cache keeps values under names. A value is fresh while its age is below the cache's time to live.
Once the cache outgrows its bound, the fifth of its entries that was set longest ago is dropped.
Entries are kept in the order in which they were set last, so the oldest come first. Times are
milliseconds on a clock that never goes back.
-/

namespace RecordShelf

/-- What was looked up, found and dropped because of age or number. -/
structure CacheCounters where
  hits : Nat
  misses : Nat
  evictions : Nat
  deriving DecidableEq, Repr

namespace CacheCounters

def zero : CacheCounters := ⟨0, 0, 0⟩

def add (a b : CacheCounters) : CacheCounters :=
  ⟨a.hits + b.hits, a.misses + b.misses, a.evictions + b.evictions⟩

def hit (c : CacheCounters) : CacheCounters := { c with hits := c.hits + 1 }

def miss (c : CacheCounters) : CacheCounters := { c with misses := c.misses + 1 }

def evict (c : CacheCounters) (n : Nat) : CacheCounters := { c with evictions := c.evictions + n }

end CacheCounters

/-- A value with the moment at which it was set. -/
structure Stored (α : Type) where
  value : α
  time : Nat

structure TimedCache (α : Type) where
  /-- The time to live. -/
  ttl : Nat
  maxEntries : Nat
  /-- Oldest first. -/
  entries : Named (Stored α)
  counters : CacheCounters

namespace TimedCache
variable {α : Type}

def create (ttl maxEntries : Nat) : TimedCache α := ⟨ttl, maxEntries, [], .zero⟩

def size (c : TimedCache α) : Nat := c.entries.length

def isFresh (c : TimedCache α) (now : Nat) (entry : Stored α) : Bool := now - entry.time < c.ttl

/-- The fresh value under a name. An entry that is too old is removed on the way. -/
def get (c : TimedCache α) (now : Nat) (name : String) : Option α × TimedCache α :=
  match c.entries.get? name with
  | none => (none, { c with counters := c.counters.miss })
  | some entry =>
    if c.isFresh now entry then (some entry.value, { c with counters := c.counters.hit })
    else
      (none, { c with entries := c.entries.erase name, counters := (c.counters.evict 1).miss })

/-- How many entries are dropped when the cache outgrows its bound. -/
def batch (c : TimedCache α) : Nat := max (c.maxEntries * 20 / 100) 1

/-- Drops the oldest entries if there are too many. -/
def trim (c : TimedCache α) : TimedCache α :=
  if c.size > c.maxEntries then
    { c with entries := c.entries.drop c.batch, counters := c.counters.evict (min c.batch c.size) }
  else c

/-- Makes an entry the newest one. -/
def place (c : TimedCache α) (now : Nat) (name : String) (value : α) : TimedCache α :=
  { c with entries := c.entries.erase name ++ [(name, ⟨value, now⟩)] }

def set (c : TimedCache α) (now : Nat) (name : String) (value : α) : TimedCache α :=
  (c.place now name value).trim

/-- Drops one entry and says whether it was there. -/
def invalidate (c : TimedCache α) (name : String) : Bool × TimedCache α :=
  ((c.entries.get? name).isSome, { c with entries := c.entries.erase name })

def clear (c : TimedCache α) : TimedCache α := { c with entries := [] }

/-- Removes all entries that are too old and gives their number. -/
def sweep (c : TimedCache α) (now : Nat) : Nat × TimedCache α :=
  let fresh := c.entries.filter fun entry => c.isFresh now entry.2
  let removed := c.size - fresh.length
  (removed, { c with entries := fresh, counters := c.counters.evict removed })

def resetCounters (c : TimedCache α) : TimedCache α := { c with counters := .zero }

end TimedCache

end RecordShelf

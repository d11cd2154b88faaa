import RecordShelf.Cache.Namespace
import RecordShelf.Cache.TimedCache
import RecordShelf.Json.Value
import RecordShelf.Number.Fixed

/-!
# The caches of all namespaces

`Caches` holds one cache for each namespace. What is done in one namespace leaves the others as they
are; `CacheStats` adds them up.
-/

namespace RecordShelf

-- The zero of the core library, whatever else is in scope.
attribute [local instance (2000)] Zero.ofOfNat0

structure Caches where
  byIndex : Vector (TimedCache Json) 12

namespace Caches

/-- Empty caches with the given times to live. -/
def create (ttl : Namespace → Nat) (maxEntries : Nat) : Caches :=
  ⟨⟨(Namespace.all.map fun ns => TimedCache.create (ttl ns) maxEntries).toArray, rfl⟩⟩

def cache (c : Caches) (ns : Namespace) : TimedCache Json := c.byIndex[ns.index]

def setCache (c : Caches) (ns : Namespace) (cache : TimedCache Json) : Caches :=
  ⟨c.byIndex.set ns.index cache⟩

@[simp] theorem cache_setCache_self (c : Caches) (ns : Namespace) (cache : TimedCache Json) :
    (c.setCache ns cache).cache ns = cache := by
  simp [setCache, Caches.cache]

theorem cache_setCache_of_ne (c : Caches) {ns other : Namespace} (cache : TimedCache Json)
    (h : other ≠ ns) : (c.setCache ns cache).cache other = c.cache other := by
  have hi : ns.index.val ≠ other.index.val := fun e =>
    h (Namespace.index_injective (Fin.ext e)).symm
  simp [setCache, Caches.cache, hi]

def get (c : Caches) (now : Nat) (ns : Namespace) (key : String) : Option Json × Caches :=
  let (value, cache) := (c.cache ns).get now key
  (value, c.setCache ns cache)

def set (c : Caches) (now : Nat) (ns : Namespace) (key : String) (value : Json) : Caches :=
  c.setCache ns ((c.cache ns).set now key value)

def invalidate (c : Caches) (ns : Namespace) (key : String) : Caches :=
  c.setCache ns ((c.cache ns).invalidate key).2

def invalidateAll (c : Caches) (ns : Namespace) : Caches := c.setCache ns (c.cache ns).clear

/-- Removes what is too old in one namespace. -/
def sweepNamespace (c : Caches) (now : Nat) (ns : Namespace) : Nat × Caches :=
  let (removed, cache) := (c.cache ns).sweep now
  (removed, c.setCache ns cache)

/-- Removes what is too old in some namespaces. -/
def sweepAll (now : Nat) : List Namespace → Caches → Nat × Caches
  | [], c => (0, c)
  | ns :: rest, c =>
    let (first, c) := c.sweepNamespace now ns
    let (others, c) := sweepAll now rest c
    (first + others, c)

def sweep (c : Caches) (now : Nat) : Nat × Caches := sweepAll now Namespace.all c

/-- Drops every entry and starts counting anew. -/
def reset (c : Caches) : Caches := ⟨c.byIndex.map fun cache => cache.clear.resetCounters⟩

end Caches

structure CacheStats where
  counters : CacheCounters
  sizes : List (Namespace × Nat)

def Caches.stats (c : Caches) : CacheStats where
  counters := Namespace.all.foldl (fun sum ns => sum.add (c.cache ns).counters) .zero
  sizes := Namespace.all.map fun ns => (ns, (c.cache ns).size)

namespace CacheStats

def totalSize (s : CacheStats) : Nat := (s.sizes.map (·.2)).sum

/-- The share of lookups that found something; zero if nothing was looked up. -/
def hitRate (s : CacheStats) : Double :=
  let lookups := s.counters.hits + s.counters.misses
  if lookups = 0 then .zero false else .ofRatio false s.counters.hits lookups

def line (name : String) (n : Nat) : String := name ++ ": " ++ String.ofList (decimalDigits n)

/-- The statistics as text, one namespace a line and no line end after the last. -/
def text (s : CacheStats) : String :=
  let c := s.counters
  line "hits" c.hits ++ ", " ++ line "misses" c.misses ++ ", " ++ line "evictions" c.evictions ++
    ", hit rate: " ++ String.ofList ((s.hitRate.scale 100).fixed 2) ++ "%\n" ++
    String.join (s.sizes.map fun (ns, n) => "  " ++ line ns.name n ++ "\n") ++
    line "total" s.totalSize

end CacheStats

end RecordShelf

import Mathlib.Algebra.BigOperators.Group.List.Basic
import RecordShelf.Proofs.Cache.LastSet

/-!
# What the counters of the caches count

Every lookup is a hit or a miss, and every entry that came into a cache is still there, was evicted
or was dropped. An account is kept of what is done with each namespace, beside the caches' own
counters; however lookups, values, sweeps and the clock follow each other, the two agree. What is
done in one namespace leaves the others alone.
-/

namespace RecordShelf

theorem Named.length_erase {α : Type} (r : Named α) (name : String) :
    (r.erase name).length + (r.get? name).isSome.toNat = r.length := by
  induction r with
  | nil => rfl
  | cons entry r ih =>
    obtain ⟨k, v⟩ := entry
    by_cases hk : k = name
    · simp [erase, get?, hk]
    · simp only [erase, get?, hk, if_false, List.length_cons]
      omega

/-- What was done with a cache since it started counting. -/
structure Account where
  gets : ℕ
  /-- Lookups that gave a value. -/
  found : ℕ
  /-- Values set under names that were not there. -/
  added : ℕ
  /-- Entries that were invalidated or cleared. -/
  dropped : ℕ

namespace Account

def zero : Account := ⟨0, 0, 0, 0⟩

def look (a : Account) (found : Bool) : Account :=
  { a with gets := a.gets + 1, found := a.found + found.toNat }

def add (a : Account) (new : Bool) : Account := { a with added := a.added + new.toNat }

def drop (a : Account) (n : ℕ) : Account := { a with dropped := a.dropped + n }

end Account

namespace TimedCache
variable {α : Type} {c : TimedCache α} {a : Account}

/-- The counters and the entries of a cache agree with an account of what was done with it. -/
structure Balanced (c : TimedCache α) (a : Account) : Prop where
  hits : c.counters.hits = a.found
  lookups : c.counters.hits + c.counters.misses = a.gets
  entries : a.added = c.size + c.counters.evictions + a.dropped

theorem balanced_create (ttl maxEntries : ℕ) :
    (create ttl maxEntries : TimedCache α).Balanced .zero := ⟨rfl, rfl, rfl⟩

/-- An entry that is found too old is one eviction and one miss. -/
theorem Balanced.get (h : c.Balanced a) (now : ℕ) (name : String) :
    (c.get now name).2.Balanced (a.look (c.get now name).1.isSome) := by
  obtain ⟨hhits, hlookups, hentries⟩ := h
  cases hentry : c.entries.get? name with
  | none =>
    rw [get_of_absent hentry]
    exact ⟨hhits, congrArg (· + 1) hlookups, hentries⟩
  | some entry =>
    unfold TimedCache.get
    simp only [hentry]
    cases c.isFresh now entry with
    | true =>
      refine ⟨congrArg (· + 1) hhits, ?_, hentries⟩
      change c.counters.hits + 1 + c.counters.misses = a.gets + 1
      omega
    | false =>
      refine ⟨hhits, congrArg (· + 1) hlookups, ?_⟩
      have herase := Named.length_erase c.entries name
      rw [hentry] at herase
      change (c.entries.erase name).length + 1 = c.size at herase
      change a.added = (c.entries.erase name).length + (c.counters.evictions + 1) + a.dropped
      omega

theorem size_place (c : TimedCache α) (now : ℕ) (name : String) (value : α) :
    (c.place now name value).size = c.size + (c.entries.get? name).isNone.toNat := by
  have herase := Named.length_erase c.entries name
  rw [size, place, List.length_append, List.length_singleton, size]
  cases hentry : c.entries.get? name with
  | none =>
    rw [hentry] at herase
    exact congrArg (· + 1) herase
  | some entry =>
    rw [hentry] at herase
    exact herase

/-- What the bound pushes out is counted. -/
theorem size_trim (c : TimedCache α) :
    c.trim.size + c.trim.counters.evictions = c.size + c.counters.evictions := by
  unfold trim
  split
  · have hdrop : (c.entries.drop c.batch).length = c.size - c.batch := List.length_drop
    change (c.entries.drop c.batch).length + (c.counters.evictions + min c.batch c.size) = _
    omega
  · rfl

theorem trim_hits (c : TimedCache α) : c.trim.counters.hits = c.counters.hits := by
  unfold trim
  split <;> rfl

theorem trim_misses (c : TimedCache α) : c.trim.counters.misses = c.counters.misses := by
  unfold trim
  split <;> rfl

theorem Balanced.set (h : c.Balanced a) (now : ℕ) (name : String) (value : α) :
    (c.set now name value).Balanced (a.add (c.entries.get? name).isNone) := by
  refine ⟨(trim_hits _).trans h.hits, ?_, ?_⟩
  · rw [TimedCache.set, trim_hits, trim_misses]
    exact h.lookups
  · have hentries := h.entries
    have htrim := size_trim (c.place now name value)
    have hplace := c.size_place now name value
    change (c.set now name value).size + (c.set now name value).counters.evictions =
      (c.place now name value).size + c.counters.evictions at htrim
    change a.added + (c.entries.get? name).isNone.toNat =
      (c.set now name value).size + (c.set now name value).counters.evictions + a.dropped
    omega

theorem Balanced.invalidate (h : c.Balanced a) (name : String) :
    (c.invalidate name).2.Balanced (a.drop (c.invalidate name).1.toNat) := by
  refine ⟨h.hits, h.lookups, ?_⟩
  have hentries := h.entries
  have herase := Named.length_erase c.entries name
  change (c.entries.erase name).length + (c.entries.get? name).isSome.toNat = c.size at herase
  change a.added = (c.entries.erase name).length + c.counters.evictions +
    (a.dropped + (c.entries.get? name).isSome.toNat)
  omega

theorem Balanced.clear (h : c.Balanced a) : c.clear.Balanced (a.drop c.size) := by
  refine ⟨h.hits, h.lookups, ?_⟩
  have hentries := h.entries
  change a.added = 0 + c.counters.evictions + (a.dropped + c.size)
  omega

theorem Balanced.sweep (h : c.Balanced a) (now : ℕ) : (c.sweep now).2.Balanced a := by
  refine ⟨h.hits, h.lookups, ?_⟩
  have hentries := h.entries
  have hle : (c.entries.filter fun entry => c.isFresh now entry.2).length ≤ c.size :=
    List.length_filter_le _ _
  change a.added = (c.entries.filter fun entry => c.isFresh now entry.2).length +
    (c.counters.evictions +
      (c.size - (c.entries.filter fun entry => c.isFresh now entry.2).length)) + a.dropped
  omega

end TimedCache

namespace Caches

/-! ## Caches in use -/

/-- Caches on a running clock, with the sweeper that runs, if one does. -/
structure Ticking where
  caches : Caches
  now : ℕ
  sweeper : Option Sweeper

namespace Ticking

def start (ttl : Namespace → ℕ) (maxEntries now : ℕ) : Ticking :=
  ⟨create ttl maxEntries, now, none⟩

/-- Lets the clock go on; the sweeper sweeps at every moment that is due on the way. -/
def advance (t : Ticking) (ms : ℕ) : Ticking where
  caches := (t.sweeper.elim [] (·.dueIn t.now (t.now + ms))).foldl
    (fun c m => (c.sweep m).2) t.caches
  now := t.now + ms
  sweeper := t.sweeper

end Ticking

/-- What may happen to the caches. -/
inductive Action where
  | get (space : Namespace) (key : String)
  | set (space : Namespace) (key : String) (value : Json)
  | invalidate (space : Namespace) (key : String)
  | invalidateAll (space : Namespace)
  | sweepNamespace (space : Namespace)
  | sweep
  | advance (ms : ℕ)
  | startSweeper (period : ℕ)
  | stopSweeper
  | reset

namespace Action

def after (t : Ticking) : Action → Ticking
  | .get ns key => { t with caches := (t.caches.get t.now ns key).2 }
  | .set ns key value => { t with caches := t.caches.set t.now ns key value }
  | .invalidate ns key => { t with caches := t.caches.invalidate ns key }
  | .invalidateAll ns => { t with caches := t.caches.invalidateAll ns }
  | .sweepNamespace ns => { t with caches := (t.caches.sweepNamespace t.now ns).2 }
  | .sweep => { t with caches := (t.caches.sweep t.now).2 }
  | .advance ms => t.advance ms
  | .startSweeper period => { t with sweeper := some ⟨t.now, period⟩ }
  | .stopSweeper => { t with sweeper := none }
  | .reset => { t with caches := t.caches.reset }

/-- The one namespace in which something is done. -/
def space? : Action → Option Namespace
  | .get ns _ | .set ns _ _ | .invalidate ns _ | .invalidateAll ns | .sweepNamespace ns => some ns
  | _ => none

/-- The accounts after an action; a reset starts them anew. -/
def book (t : Ticking) (accounts : Namespace → Account) : Action → Namespace → Account
  | .get ns key =>
    Function.update accounts ns ((accounts ns).look (t.caches.get t.now ns key).1.isSome)
  | .set ns key _ =>
    Function.update accounts ns ((accounts ns).add ((t.caches.cache ns).entries.get? key).isNone)
  | .invalidate ns key =>
    Function.update accounts ns ((accounts ns).drop ((t.caches.cache ns).invalidate key).1.toNat)
  | .invalidateAll ns => Function.update accounts ns ((accounts ns).drop (t.caches.cache ns).size)
  | .reset => fun _ => .zero
  | _ => accounts

end Action

namespace Ticking

def afterAll (t : Ticking) (actions : List Action) : Ticking := actions.foldl Action.after t

/-- The accounts after some actions, from given ones. -/
def booked (t : Ticking) (accounts : Namespace → Account) : List Action → Namespace → Account
  | [] => accounts
  | a :: actions => (a.after t).booked (a.book t accounts) actions

end Ticking

variable {c : Caches} {accounts : Namespace → Account} {t : Ticking}

/-- Every namespace agrees with its account. -/
def Balanced (c : Caches) (accounts : Namespace → Account) : Prop :=
  ∀ ns, (c.cache ns).Balanced (accounts ns)

theorem balanced_create (ttl : Namespace → ℕ) (maxEntries : ℕ) :
    (create ttl maxEntries).Balanced fun _ => .zero := by
  intro ns
  rw [cache_create]
  exact TimedCache.balanced_create _ _

theorem Balanced.setCache (h : c.Balanced accounts) (ns : Namespace) {cache : TimedCache Json}
    {account : Account} (hcache : cache.Balanced account) :
    (c.setCache ns cache).Balanced (Function.update accounts ns account) := by
  intro other
  by_cases hne : other = ns
  · subst hne
    rw [cache_setCache_self, Function.update_self]
    exact hcache
  · rw [cache_setCache_of_ne c cache hne, Function.update_of_ne hne]
    exact h other

theorem Balanced.sweepNamespace (h : c.Balanced accounts) (now : ℕ) (ns : Namespace) :
    (c.sweepNamespace now ns).2.Balanced accounts := by
  have hswept := h.setCache ns ((h ns).sweep now)
  rwa [Function.update_eq_self] at hswept

theorem Balanced.sweepAll (h : c.Balanced accounts) (now : ℕ) (spaces : List Namespace) :
    (Caches.sweepAll now spaces c).2.Balanced accounts := by
  induction spaces generalizing c with
  | nil => exact h
  | cons ns spaces ih => exact ih (h.sweepNamespace now ns)

theorem Balanced.foldl_sweep (h : c.Balanced accounts) (moments : List ℕ) :
    (moments.foldl (fun c m => (c.sweep m).2) c).Balanced accounts := by
  induction moments generalizing c with
  | nil => exact h
  | cons m moments ih => exact ih (h.sweepAll m Namespace.all)

theorem balanced_reset (c : Caches) : c.reset.Balanced fun _ => .zero := by
  intro ns
  rw [cache_reset]
  exact ⟨rfl, rfl, rfl⟩

theorem Balanced.after (h : t.caches.Balanced accounts) (a : Action) :
    (a.after t).caches.Balanced (a.book t accounts) := by
  cases a with
  | get ns key => exact h.setCache ns ((h ns).get t.now key)
  | set ns key value => exact h.setCache ns ((h ns).set t.now key value)
  | invalidate ns key => exact h.setCache ns ((h ns).invalidate key)
  | invalidateAll ns => exact h.setCache ns (h ns).clear
  | sweepNamespace ns => exact h.sweepNamespace t.now ns
  | sweep => exact h.sweepAll t.now Namespace.all
  | advance ms => exact h.foldl_sweep _
  | startSweeper period => exact h
  | stopSweeper => exact h
  | reset => exact balanced_reset t.caches

theorem Balanced.afterAll (h : t.caches.Balanced accounts) (actions : List Action) :
    (t.afterAll actions).caches.Balanced (t.booked accounts actions) := by
  induction actions generalizing t accounts with
  | nil => exact h
  | cons a actions ih => exact ih (h.after a)

/-- What is done in one namespace leaves the others alone. -/
theorem Action.cache_after_of_ne {a : Action} {ns other : Namespace} (hspace : a.space? = some ns)
    (hne : other ≠ ns) : (a.after t).caches.cache other = t.caches.cache other := by
  cases a with
  | get space key => cases hspace; exact cache_setCache_of_ne _ _ hne
  | set space key value => cases hspace; exact cache_setCache_of_ne _ _ hne
  | invalidate space key => cases hspace; exact cache_setCache_of_ne _ _ hne
  | invalidateAll space => cases hspace; exact cache_setCache_of_ne _ _ hne
  | sweepNamespace space => cases hspace; exact cache_setCache_of_ne _ _ hne
  | _ => exact nomatch hspace

/-! ## Statistics -/

/-- A number of each namespace, added up. -/
def overall (f : Namespace → ℕ) : ℕ := (Namespace.all.map f).sum

theorem foldl_add_counters (f : Namespace → CacheCounters) (spaces : List Namespace)
    (first : CacheCounters) :
    (spaces.foldl (fun sum ns => sum.add (f ns)) first).hits =
        first.hits + (spaces.map fun ns => (f ns).hits).sum ∧
      (spaces.foldl (fun sum ns => sum.add (f ns)) first).misses =
        first.misses + (spaces.map fun ns => (f ns).misses).sum := by
  induction spaces generalizing first with
  | nil => exact ⟨rfl, rfl⟩
  | cons ns spaces ih =>
    obtain ⟨hhits, hmisses⟩ := ih (first.add (f ns))
    rw [List.foldl_cons, hhits, hmisses, List.map_cons, List.map_cons, List.sum_cons, List.sum_cons,
      ← Nat.add_assoc, ← Nat.add_assoc]
    exact ⟨rfl, rfl⟩

theorem hits_stats (c : Caches) :
    c.stats.counters.hits = overall fun ns => (c.cache ns).counters.hits := by
  rw [stats, (foldl_add_counters _ _ _).1]
  exact Nat.zero_add _

theorem misses_stats (c : Caches) :
    c.stats.counters.misses = overall fun ns => (c.cache ns).counters.misses := by
  rw [stats, (foldl_add_counters _ _ _).2]
  exact Nat.zero_add _

theorem overall_add (f g : Namespace → ℕ) :
    overall (fun ns => f ns + g ns) = overall f + overall g := List.sum_map_add

/-- Whatever is done with the caches, hits are the lookups that gave a value since the last reset,
and hits and misses together are all lookups. In each namespace the values set under new names are
as many as the entries that are there, those that were evicted and those that were dropped. The
total size is the sum of the sizes, and what is done in one namespace leaves the others alone. -/
theorem accounts_balance (ttl : Namespace → ℕ) (maxEntries now : ℕ) (actions : List Action) :
    let t := (Ticking.start ttl maxEntries now).afterAll actions
    let accounts := (Ticking.start ttl maxEntries now).booked (fun _ => .zero) actions
    t.caches.stats.counters.hits = overall (fun ns => (accounts ns).found) ∧
      t.caches.stats.counters.hits + t.caches.stats.counters.misses =
        overall (fun ns => (accounts ns).gets) ∧
      (∀ ns, (accounts ns).added = (t.caches.cache ns).size +
        (t.caches.cache ns).counters.evictions + (accounts ns).dropped) ∧
      t.caches.stats.totalSize = overall (fun ns => (t.caches.cache ns).size) ∧
      ∀ (a : Action) (ns other : Namespace), a.space? = some ns → other ≠ ns →
        (a.after t).caches.cache other = t.caches.cache other := by
  intro t accounts
  have hbalanced : t.caches.Balanced accounts := (balanced_create ttl maxEntries).afterAll actions
  have hhits : t.caches.stats.counters.hits = overall (fun ns => (accounts ns).found) := by
    rw [hits_stats]
    exact congrArg overall (funext fun ns => (hbalanced ns).hits)
  have hgets : t.caches.stats.counters.hits + t.caches.stats.counters.misses =
      overall (fun ns => (accounts ns).gets) := by
    rw [hits_stats, misses_stats, ← overall_add]
    exact congrArg overall (funext fun ns => (hbalanced ns).lookups)
  have hsize : t.caches.stats.totalSize = overall (fun ns => (t.caches.cache ns).size) := by
    rw [CacheStats.totalSize, stats, List.map_map]
    rfl
  refine ⟨hhits, hgets, fun ns => (hbalanced ns).entries, hsize, fun a ns other hspace hne => ?_⟩
  exact Action.cache_after_of_ne hspace hne

end Caches

end RecordShelf

import Mathlib.Logic.Function.Basic
import RecordShelf.Proofs.Cache.Evictions
import RecordShelf.Proofs.Database.Faithful
import RecordShelf.Proofs.Database.Overtaking

/-!
# Steps of a batch

A batch of roles first asks the cache for each of its users once. Then it loads the roles of those
for whom the cache had no answer, each by the steps of a lookup, and these may alternate in any
order while time goes on. Asking for one user does not change the answer for another one.
-/

namespace RecordShelf

/-! ## One name among others -/

namespace TimedCache
variable {α : Type} {c : TimedCache α} {now : ℕ} {name other : String} {v : α}

theorem set_ttl (c : TimedCache α) (now : ℕ) (name : String) (v : α) :
    (c.set now name v).ttl = c.ttl := by
  unfold TimedCache.set trim
  split <;> rfl

theorem fst_get (c : TimedCache α) (now : ℕ) (name : String) : (c.get now name).1 =
    (c.entries.get? name).bind fun entry =>
      if c.isFresh now entry = true then some entry.value else none := by
  unfold TimedCache.get
  cases c.entries.get? name with
  | none => rfl
  | some entry =>
    rw [Option.bind_some]
    dsimp only
    split <;> rfl

/-- A lookup of one name does not change what a lookup of another one finds. -/
theorem get_get_of_ne (c : TimedCache α) (now : ℕ) (h : other ≠ name) :
    ((c.get now name).2.get now other).1 = (c.get now other).1 := by
  have hentry : (c.get now name).2.entries.get? other = c.entries.get? other := by
    rcases c.get_entries now name with hsame | ⟨-, -, -, herase⟩
    · rw [hsame]
    · rw [herase, Named.get?_erase_of_ne _ h]
  have hfresh : (c.get now name).2.isFresh now = c.isFresh now := by
    funext entry
    rw [isFresh, isFresh, get_ttl]
  rw [fst_get, fst_get c, hentry, hfresh]

theorem mem_place_iff (hc : c.Distinct) {entry : Stored α} (h : other ≠ name) :
    (other, entry) ∈ (c.place now name v).entries ↔ (other, entry) ∈ c.entries := by
  rw [place, Named.erase_eq_filter hc, List.mem_append, List.mem_filter, List.mem_singleton]
  simp [h]

theorem mem_get_iff (hc : c.Distinct) {entry : Stored α} (h : other ≠ name) :
    (other, entry) ∈ (c.get now name).2.entries ↔ (other, entry) ∈ c.entries := by
  rcases c.get_entries now name with hsame | ⟨-, -, -, herase⟩
  · rw [hsame]
  · rw [herase, Named.erase_eq_filter hc, List.mem_filter]
    simp [h]

theorem names_get_subset (c : TimedCache α) (now : ℕ) (name : String) :
    (c.get now name).2.entries.names ⊆ c.entries.names :=
  ((c.get_sublist now name).map _).subset

theorem names_place_subset (c : TimedCache α) (now : ℕ) (name : String) (v : α) :
    (c.place now name v).entries.names ⊆ name :: c.entries.names := by
  intro x hx
  rw [place, Named.names, List.map_append, List.mem_append] at hx
  rcases hx with hx | hx
  · exact List.mem_cons_of_mem _ (((Named.erase_sublist _ _).map _).subset hx)
  · exact List.mem_cons.2 (.inl (List.mem_singleton.1 hx))

/-- A cache whose names are on a list is not larger than the list. -/
theorem size_le_of_names (hc : c.Distinct) {names : List String} (h : c.entries.names ⊆ names) :
    c.size ≤ names.length := by
  have hlength := (List.Nodup.subperm hc h).length_le
  rwa [Named.names, List.length_map] at hlength

end TimedCache

/-- A sweep that is due as time goes on is not due later than that. -/
theorem Database.records_advance_le (db : Database) (ms : ℕ) :
    (db.advance ms).records = db.records ∨
    ∃ due, due ≤ (db.advance ms).clock ∧ (db.advance ms).records = (db.records.sweep due).2 := by
  cases hsweeping : db.sweeping with
  | none => exact .inl (by simp only [advance, hsweeping])
  | some start =>
    simp only [advance, hsweeping, sweepRecords]
    split
    · rename_i due hdue
      exact .inr ⟨due, Sweeper.lastDue?_le hdue, rfl⟩
    · exact .inl rfl

theorem Database.clock_advance (db : Database) (ms : ℕ) :
    (db.advance ms).clock = db.clock + ms := by
  unfold Database.advance
  split <;> rfl

theorem nodup_eraseDups : ∀ users : List Int64, users.eraseDups.Nodup
  | [] => List.nodup_nil
  | user :: users => by
    rw [List.eraseDups_cons, List.nodup_cons, List.mem_eraseDups]
    exact ⟨by simp, nodup_eraseDups _⟩
termination_by users => users.length
decreasing_by exact Nat.lt_succ_of_le (List.length_filter_le _ _)

/-! ## Steps of a batch -/

namespace LookupPhase

/-- The cache has not been asked yet. -/
def isBegun : LookupPhase → Bool
  | begun => true
  | _ => false

/-- The value is still to be loaded. -/
def isMissed : LookupPhase → Bool
  | missed => true
  | _ => false

end LookupPhase

/-- The lookups of many roles on one database. -/
structure Batch where
  db : Database
  phase : Int64 → LookupPhase
  /-- The users whose roles are or have been loaded, the last one first. -/
  loads : List Int64

namespace Batch

/-- Whose lookup goes on; the clock runs in between. -/
inductive Turn where
  | load (user : Int64)
  | wait (ms : ℕ)
  deriving DecidableEq

/-- One user's lookup takes a step. -/
def look (conference : Int64) (σ : Batch) (user : Int64) : Batch :=
  let next := (σ.phase user).next (.role conference user) .ready σ.db
  ⟨next.2, Function.update σ.phase user next.1,
    if (σ.phase user).isMissed then user :: σ.loads else σ.loads⟩

/-- The cache has been asked for each user. -/
def asked (conference : Int64) (users : List Int64) (start : Database) : Batch :=
  users.eraseDups.foldl (look conference) ⟨start, fun _ => .begun, []⟩

/-- Only roles are loaded that the cache has been asked for. -/
def step (conference : Int64) (σ : Batch) : Turn → Batch
  | .load user => if (σ.phase user).isBegun then σ else σ.look conference user
  | .wait ms => { σ with db := σ.db.advance ms }

def run (conference : Int64) (users : List Int64) (start : Database) (turns : List Turn) : Batch :=
  turns.foldl (step conference) (asked conference users start)

/-- The role that has been found for a user. -/
def role? (σ : Batch) (user : Int64) : Option Int64 :=
  match (σ.phase user).result? with
  | some (.ok value) => some (value.toInt64?.getD 0)
  | _ => none

variable {conference : Int64} {users : List Int64} {start : Database} {σ : Batch} {user : Int64}

theorem look_of_next {phase : LookupPhase} {db : Database}
    (h : (σ.phase user).next (.role conference user) .ready σ.db = (phase, db)) :
    σ.look conference user = ⟨db, Function.update σ.phase user phase,
      if (σ.phase user).isMissed then user :: σ.loads else σ.loads⟩ := by
  rw [look, h]

theorem exists_value (conference user : Int64) (source : Except Error (Option Json)) :
    ∃ value, (CachedEntry.role conference user).value source = .ok value := by
  cases source <;> exact ⟨_, rfl⟩

/-- A role that has been loaded is set. -/
theorem next_loaded {t : Taken} {value : Json}
    (h : (CachedEntry.role conference user).value t.source = .ok value) (db : Database) :
    LookupPhase.next (.role conference user) .ready db (.loaded t) =
      (.stored t value .ready, { db with
        caches := db.caches.set db.clock .userRoles (Invalidation.role conference user).key
          value }) := by
  rw [LookupPhase.next, h]
  rfl

/-! ## Asking the cache -/

/-- The fresh value that the cache has for a user. -/
def cachedRole? (db : Database) (conference user : Int64) : Option Json :=
  (db.caches.get db.clock .userRoles (Invalidation.role conference user).key).1

/-- What comes of asking the cache. -/
def answer : Option Json → LookupPhase
  | some value => .found value
  | none => .missed

theorem cachedRole?_get (db : Database) {user other : Int64} (h : other ≠ user) :
    cachedRole? { db with
      caches := (db.caches.get db.clock .userRoles (Invalidation.role conference user).key).2 }
      conference other = cachedRole? db conference other := by
  have hkey : (Invalidation.role conference other).key ≠ (Invalidation.role conference user).key :=
    fun heq => h (Invalidation.role_injective heq).2
  simp only [cachedRole?, Caches.get, Caches.cache_setCache_self]
  exact TimedCache.get_get_of_ne _ _ hkey

theorem look_begun (conference : Int64) (h : σ.phase user = .begun) : σ.look conference user =
    ⟨{ σ.db with caches := (σ.db.caches.get σ.db.clock .userRoles
        (Invalidation.role conference user).key).2 },
      Function.update σ.phase user (answer (cachedRole? σ.db conference user)), σ.loads⟩ := by
  have hnext : (σ.phase user).next (.role conference user) .ready σ.db =
      (answer (cachedRole? σ.db conference user), { σ.db with caches := (σ.db.caches.get σ.db.clock
        .userRoles (Invalidation.role conference user).key).2 }) := by
    have hplace : (CachedEntry.role conference user).place =
        Invalidation.role conference user := rfl
    have hspace : (Invalidation.role conference user).space = .userRoles := rfl
    rw [h, LookupPhase.next, hplace, hspace, cachedRole?]
    cases hget : σ.db.caches.get σ.db.clock .userRoles (Invalidation.role conference user).key with
    | mk found caches => cases found <;> rfl
  rw [look_of_next hnext, h]
  rfl

/-- Asking for some users, none of them twice, answers each as the cache would have answered for
this one alone. -/
theorem foldl_look (conference : Int64) (hdistinct : users.Nodup)
    (hbegun : ∀ user ∈ users, σ.phase user = .begun) :
    (∃ caches, (users.foldl (look conference) σ).db = { σ.db with caches := caches }) ∧
      (users.foldl (look conference) σ).loads = σ.loads ∧
      ∀ user, (users.foldl (look conference) σ).phase user =
        if user ∈ users then answer (cachedRole? σ.db conference user) else σ.phase user := by
  induction users generalizing σ with
  | nil => exact ⟨⟨_, rfl⟩, rfl, fun user => by simp⟩
  | cons first users ih =>
    obtain ⟨hnew, hdistinct⟩ := List.nodup_cons.1 hdistinct
    have hlook := look_begun conference (hbegun first List.mem_cons_self)
    have hrest : ∀ user ∈ users, (σ.look conference first).phase user = .begun := by
      intro user hmem
      have hne : user ≠ first := fun heq => hnew (heq ▸ hmem)
      rw [hlook]
      exact (Function.update_of_ne hne _ _).trans (hbegun user (List.mem_cons_of_mem _ hmem))
    obtain ⟨⟨caches, hdb⟩, hloads, hphase⟩ := ih hdistinct hrest
    rw [List.foldl_cons]
    refine ⟨⟨caches, ?_⟩, ?_, fun user => ?_⟩
    · rw [hdb, hlook]
    · rw [hloads, hlook]
    · rw [hphase, hlook]
      dsimp only
      by_cases hfirst : user = first
      · subst hfirst
        rw [if_neg hnew, if_pos List.mem_cons_self, Function.update_self]
      · rw [Function.update_of_ne hfirst, cachedRole?_get _ hfirst]
        simp only [List.mem_cons, hfirst, false_or]

theorem asked_eq (conference : Int64) (users : List Int64) (start : Database) :
    (∃ caches, (asked conference users start).db = { start with caches := caches }) ∧
      (asked conference users start).loads = [] ∧
      ∀ user, (asked conference users start).phase user =
        if user ∈ users then answer (cachedRole? start conference user) else .begun := by
  obtain ⟨hdb, hloads, hphase⟩ := @foldl_look _ ⟨start, fun _ => .begun, []⟩ conference
    (nodup_eraseDups users) fun _ _ => rfl
  refine ⟨hdb, hloads, fun user => ?_⟩
  simp only [List.mem_eraseDups] at hphase
  exact hphase user

end Batch

end RecordShelf

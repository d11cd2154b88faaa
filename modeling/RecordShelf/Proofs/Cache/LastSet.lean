import Mathlib.Algebra.Ring.Nat
import Mathlib.Data.List.Induction
import RecordShelf.Cache.Sweeper
import RecordShelf.Proofs.Cache.TimedCache

/-!
# What a cache remembers

Values are set, looked up and dropped while the clock goes on, and sweeps run by hand or by a sweeper.
A lookup finds only the value that its name was set to last, less than the time to live ago and not
dropped since. As long as no value brings the cache above its bound it finds every such value,
whatever sweeps there were.
-/

namespace RecordShelf

namespace TimedCache
variable {α : Type} {c : TimedCache α}

/-! ## Sweeps that are due -/

theorem isFresh_of_le {m n : ℕ} {entry : Stored α} (h : c.isFresh n entry = true) (hle : m ≤ n) :
    c.isFresh m entry = true := by
  have hlt := of_decide_eq_true h
  exact decide_eq_true (by omega)

theorem mem_sweep_iff {now : ℕ} {entry : String × Stored α} :
    entry ∈ (c.sweep now).2.entries ↔ entry ∈ c.entries ∧ c.isFresh now entry.2 = true :=
  List.mem_filter

/-- What an earlier sweep removes a later one would have removed as well. -/
theorem sweep_sweep (c : TimedCache α) {m n : ℕ} (h : m ≤ n) :
    ((c.sweep m).2.sweep n).2 = (c.sweep n).2 := by
  obtain ⟨first, hfirst⟩ : ∃ first, first = c.entries.filter fun entry => c.isFresh m entry.2 :=
    ⟨_, rfl⟩
  obtain ⟨last, hlast⟩ : ∃ last, last = c.entries.filter fun entry => c.isFresh n entry.2 :=
    ⟨_, rfl⟩
  have hboth : (first.filter fun entry => c.isFresh n entry.2) = last := by
    rw [hfirst, hlast, List.filter_filter]
    apply List.filter_congr
    intro entry _
    cases hn : c.isFresh n entry.2 with
    | false => rfl
    | true => rw [isFresh_of_le hn h]; rfl
  have hsum : c.entries.length - first.length + (first.length - last.length) =
      c.entries.length - last.length := by
    have hle := List.length_filter_le (fun entry => c.isFresh m entry.2) c.entries
    have hle' := List.length_filter_le (fun entry => c.isFresh n entry.2) first
    rw [← hfirst] at hle
    rw [hboth] at hle'
    omega
  calc ((c.sweep m).2.sweep n).2
      = { c with
          entries := last
          counters := (c.counters.evict (c.entries.length - first.length)).evict
            (first.length - last.length) } := by rw [← hboth, hfirst]; rfl
    _ = { c with
          entries := last
          counters := c.counters.evict (c.entries.length - last.length) } := by
        rw [← hsum, CacheCounters.evict, CacheCounters.evict, CacheCounters.evict, Nat.add_assoc]
    _ = (c.sweep n).2 := by rw [hlast]; rfl

/-- Of several sweeps only the last one matters. -/
theorem foldl_sweep (c : TimedCache α) (moments : List ℕ) {last : ℕ} (h : ∀ m ∈ moments, m ≤ last) :
    ((moments.foldl (fun c m => (c.sweep m).2) c).sweep last).2 = (c.sweep last).2 := by
  induction moments generalizing c with
  | nil => rfl
  | cons m moments ih =>
    obtain ⟨hm, hmoments⟩ := List.forall_mem_cons.1 h
    rw [List.foldl_cons, ih _ hmoments, sweep_sweep c hm]

end TimedCache

namespace Sweeper

/-- The moments after `before` and up to `now` at which a sweep is due. -/
def dueIn (s : Sweeper) (before now : ℕ) : List ℕ :=
  ((List.range ((now - s.start) / s.period)).map fun k => s.start + (k + 1) * s.period).filter
    fun due => before < due

theorem lastDue?_le {s : Sweeper} {before now due : ℕ} (h : s.lastDue? before now = some due) :
    due ≤ now := by
  unfold lastDue? at h
  dsimp only at h
  split_ifs at h with hdue
  obtain rfl := Option.some.inj h
  have hle := Nat.div_mul_le_self (now - s.start) s.period
  have hpos : 0 < now - s.start := Nat.pos_of_div_pos hdue.1
  omega

theorem dueIn_eq (s : Sweeper) (before now : ℕ) :
    match s.lastDue? before now with
    | none => s.dueIn before now = []
    | some due => ∃ earlier, s.dueIn before now = earlier ++ [due] ∧ ∀ m ∈ earlier, m ≤ due := by
  cases hperiods : (now - s.start) / s.period with
  | zero =>
    have hnone : s.lastDue? before now = none := by
      simp [lastDue?, hperiods]
    rw [hnone]
    simp [dueIn, hperiods]
  | succ k =>
    have hearlier : ∀ m ∈ (List.range k).map fun k => s.start + (k + 1) * s.period,
        m ≤ s.start + (k + 1) * s.period := by
      intro m hm
      obtain ⟨j, hj, rfl⟩ := List.mem_map.1 hm
      have hle : (j + 1) * s.period ≤ (k + 1) * s.period :=
        Nat.mul_le_mul_right _ (Nat.succ_le_succ (Nat.le_of_lt (List.mem_range.1 hj)))
      omega
    have hdueIn : s.dueIn before now =
        (((List.range k).map fun k => s.start + (k + 1) * s.period).filter fun due => before < due) ++
          if before < s.start + (k + 1) * s.period then [s.start + (k + 1) * s.period] else [] := by
      rw [dueIn, hperiods, List.range_succ, List.map_append, List.filter_append, List.map_singleton,
        List.filter_singleton, Bool.cond_decide]
    by_cases hbefore : before < s.start + (k + 1) * s.period
    · have hsome : s.lastDue? before now = some (s.start + (k + 1) * s.period) := by
        simp [lastDue?, hperiods, hbefore]
      rw [hsome]
      refine ⟨_, by rw [hdueIn, if_pos hbefore], fun m hm => ?_⟩
      exact hearlier m (List.mem_filter.1 hm).1
    · have hnone : s.lastDue? before now = none := by
        simp [lastDue?, hperiods, hbefore]
      rw [hnone, hdueIn, if_neg hbefore, List.append_nil, List.filter_eq_nil_iff]
      intro m hm
      have hle := hearlier m hm
      simp only [decide_eq_true_eq]
      omega

/-- Sweeping at every due moment is sweeping at the last one. -/
theorem foldl_sweep_dueIn {α : Type} (s : Sweeper) (c : TimedCache α) (before now : ℕ) :
    (s.dueIn before now).foldl (fun c m => (c.sweep m).2) c =
      match s.lastDue? before now with
      | none => c
      | some due => (c.sweep due).2 := by
  have hdue := s.dueIn_eq before now
  cases hlast : s.lastDue? before now with
  | none =>
    rw [hlast] at hdue
    rw [hdue]
    rfl
  | some due =>
    rw [hlast] at hdue
    obtain ⟨earlier, hall, hle⟩ := hdue
    rw [hall, List.foldl_append]
    exact TimedCache.foldl_sweep c earlier hle

end Sweeper

namespace TimedCache
variable {α : Type} {c : TimedCache α}

/-! ## A cache in use -/

/-- A cache on a running clock, with the sweeper that runs, if one does. -/
structure Ticking (α : Type) where
  cache : TimedCache α
  now : ℕ
  sweeper : Option Sweeper

namespace Ticking

def start (ttl maxEntries now : ℕ) : Ticking α := ⟨create ttl maxEntries, now, none⟩

/-- Lets the clock go on; the sweeper sweeps at every moment that is due on the way. -/
def advance (t : Ticking α) (ms : ℕ) : Ticking α where
  cache := (t.sweeper.elim [] (·.dueIn t.now (t.now + ms))).foldl (fun c m => (c.sweep m).2) t.cache
  now := t.now + ms
  sweeper := t.sweeper

end Ticking

/-- What may happen to a cache. -/
inductive Action (α : Type) where
  | get (name : String)
  | set (name : String) (value : α)
  | invalidate (name : String)
  | clear
  | sweep
  | advance (ms : ℕ)
  | startSweeper (period : ℕ)
  | stopSweeper

namespace Action

def after (t : Ticking α) : Action α → Ticking α
  | .get name => { t with cache := (t.cache.get t.now name).2 }
  | .set name value => { t with cache := t.cache.set t.now name value }
  | .invalidate name => { t with cache := (t.cache.invalidate name).2 }
  | .clear => { t with cache := t.cache.clear }
  | .sweep => { t with cache := (t.cache.sweep t.now).2 }
  | .advance ms => t.advance ms
  | .startSweeper period => { t with sweeper := some ⟨t.now, period⟩ }
  | .stopSweeper => { t with sweeper := none }

/-- How long an action takes. -/
def duration : Action α → ℕ
  | .advance ms => ms
  | _ => 0

/-- The action sets the name or drops it. -/
def Touches (name : String) : Action α → Prop
  | .set other _ => other = name
  | .invalidate other => other = name
  | .clear => True
  | _ => False

end Action

def Ticking.afterAll (t : Ticking α) (actions : List (Action α)) : Ticking α :=
  actions.foldl Action.after t

/-- How long some actions take. -/
def elapsed (actions : List (Action α)) : ℕ := (actions.map Action.duration).sum

/-- The last thing that was done to a name was to set it to a value, so long ago. -/
def LastSet (actions : List (Action α)) (name : String) (value : α) (age : ℕ) : Prop :=
  ∃ before after, actions = before ++ .set name value :: after ∧
    (∀ a ∈ after, ¬a.Touches name) ∧ elapsed after = age

/-- No value brings the cache above its bound. -/
def Ticking.StaysWithin (t : Ticking α) (actions : List (Action α)) : Prop :=
  ∀ before name value after, actions = before ++ .set name value :: after →
    ((t.afterAll before).cache.place (t.afterAll before).now name value).size ≤
      (t.afterAll before).cache.maxEntries

section
variable {actions : List (Action α)} {a : Action α} {name : String} {value : α} {age : ℕ}

theorem elapsed_append (earlier later : List (Action α)) :
    elapsed (earlier ++ later) = elapsed earlier + elapsed later := by
  rw [elapsed, List.map_append, List.sum_append, elapsed, elapsed]

theorem elapsed_singleton (a : Action α) : elapsed [a] = a.duration := by
  rw [elapsed, List.map_singleton, List.sum_singleton]

theorem not_lastSet_nil : ¬LastSet [] name value age := by
  rintro ⟨before, after, hactions, -⟩
  exact absurd hactions.symm (by simp)

/-- A name was set last by the latest action, or before it if that does not touch the name. -/
theorem lastSet_append_singleton : LastSet (actions ++ [a]) name value age ↔
    a = .set name value ∧ age = 0 ∨
      ¬a.Touches name ∧ ∃ older, LastSet actions name value older ∧ age = older + a.duration := by
  constructor
  · rintro ⟨before, after, hactions, huntouched, rfl⟩
    rcases List.eq_nil_or_concat after with rfl | ⟨earlier, last, rfl⟩
    · obtain ⟨-, hlast⟩ := List.append_inj' hactions rfl
      exact Or.inl ⟨(List.cons.inj hlast).1, rfl⟩
    · rw [List.concat_eq_append, ← List.cons_append, ← List.append_assoc] at hactions
      obtain ⟨rfl, hlast⟩ := List.append_inj' hactions rfl
      obtain rfl := (List.cons.inj hlast).1
      rw [List.concat_eq_append] at huntouched ⊢
      refine Or.inr ⟨huntouched a (by simp), elapsed earlier, ⟨before, earlier, rfl, ?_, rfl⟩, ?_⟩
      · exact fun b hb => huntouched b (List.mem_append_left _ hb)
      · rw [elapsed_append, elapsed_singleton]
  · rintro (⟨rfl, rfl⟩ | ⟨huntouched, older, ⟨before, after, rfl, hafter, rfl⟩, rfl⟩)
    · exact ⟨actions, [], rfl, fun b hb => absurd hb List.not_mem_nil, rfl⟩
    · refine ⟨before, after ++ [a], by simp, fun b hb => ?_, ?_⟩
      · rcases List.mem_append.1 hb with hb | hb
        · exact hafter b hb
        · rwa [List.mem_singleton.1 hb]
      · rw [elapsed_append, elapsed_singleton]

/-! ## What the entries tell -/

/-- Every entry is what its name was set to last, with the moment at which that was done. -/
def Recalls (actions : List (Action α)) (c : TimedCache α) (now : ℕ) : Prop :=
  ∀ entry ∈ c.entries, ∃ age, LastSet actions entry.1 entry.2.value age ∧ entry.2.time + age = now

/-- What a name was set to last is in the cache, unless it is too old. -/
def Complete (actions : List (Action α)) (c : TimedCache α) (now : ℕ) : Prop :=
  ∀ name value age, LastSet actions name value age → age < c.ttl →
    ∃ entry : Stored α, (name, entry) ∈ c.entries ∧ entry.value = value ∧ entry.time + age = now

section
variable {now : ℕ} {c' : TimedCache α}

/-- An action that only takes entries away, those that it touches among them. -/
theorem Recalls.next (h : Recalls actions c now) (hsub : c'.entries ⊆ c.entries)
    (huntouched : ∀ entry ∈ c'.entries, ¬a.Touches entry.1) :
    Recalls (actions ++ [a]) c' (now + a.duration) := by
  intro entry hentry
  obtain ⟨age, hlast, hnow⟩ := h entry (hsub hentry)
  refine ⟨age + a.duration, lastSet_append_singleton.2 (Or.inr ⟨huntouched entry hentry, age, hlast,
    rfl⟩), ?_⟩
  omega

theorem Recalls.set (h : Recalls actions c now) (hc : c.Distinct) (name : String) (value : α) :
    Recalls (actions ++ [.set name value]) (c.set now name value) now := by
  have hplace : Recalls (actions ++ [.set name value]) (c.place now name value) now := by
    intro entry hentry
    rcases List.mem_append.1 hentry with hentry | hentry
    · rw [Named.erase_eq_filter hc] at hentry
      obtain ⟨hmem, hother⟩ := List.mem_filter.1 hentry
      obtain ⟨age, hlast, hnow⟩ := h entry hmem
      have hne : ¬Action.Touches entry.1 (.set name value) :=
        fun hname => of_decide_eq_true hother hname.symm
      exact ⟨age, lastSet_append_singleton.2 (Or.inr ⟨hne, age, hlast, rfl⟩), hnow⟩
    · obtain rfl := List.mem_singleton.1 hentry
      exact ⟨0, lastSet_append_singleton.2 (Or.inl ⟨rfl, rfl⟩), rfl⟩
  intro entry hentry
  unfold TimedCache.set TimedCache.trim at hentry
  split at hentry
  · exact hplace entry (List.mem_of_mem_drop hentry)
  · exact hplace entry hentry

/-- An action that takes away only what it touches and what is too old. -/
theorem Complete.next (h : Complete actions c now) (hset : ∀ name value, a ≠ .set name value)
    (httl : c'.ttl = c.ttl) (hkept : ∀ entry ∈ c.entries, ¬a.Touches entry.1 →
      c.isFresh (now + a.duration) entry.2 = true → entry ∈ c'.entries) :
    Complete (actions ++ [a]) c' (now + a.duration) := by
  intro name value age hlast hage
  rcases lastSet_append_singleton.1 hlast with ⟨rfl, -⟩ | ⟨huntouched, older, holder, rfl⟩
  · exact absurd rfl (hset name value)
  · rw [httl] at hage
    obtain ⟨entry, hmem, hvalue, htime⟩ := h name value older holder (by omega)
    have hfresh : now + a.duration - entry.time < c.ttl := by omega
    exact ⟨entry, hkept _ hmem huntouched (decide_eq_true hfresh), hvalue, by omega⟩

theorem Complete.set (h : Complete actions c now) (hc : c.Distinct) {name : String} {value : α}
    (hfits : (c.place now name value).size ≤ c.maxEntries) :
    Complete (actions ++ [.set name value]) (c.set now name value) now := by
  have hset : c.set now name value = c.place now name value := by
    unfold TimedCache.set TimedCache.trim
    exact if_neg (Nat.not_lt.2 hfits)
  rw [hset]
  intro other v age hlast hage
  rcases lastSet_append_singleton.1 hlast with ⟨heq, rfl⟩ | ⟨huntouched, older, holder, hsum⟩
  · cases heq
    exact ⟨⟨value, now⟩, List.mem_append_right _ (List.mem_singleton_self _), rfl, rfl⟩
  · obtain rfl : age = older := hsum
    obtain ⟨entry, hmem, hvalue, htime⟩ := h other v age holder hage
    refine ⟨entry, List.mem_append_left _ ?_, hvalue, htime⟩
    rw [Named.erase_eq_filter hc]
    exact List.mem_filter.2 ⟨hmem, decide_eq_true fun hname => huntouched hname.symm⟩

end

end

/-! ## Whole runs -/

section
variable {actions : List (Action α)} {name : String} {value : α} {t : Ticking α} {now : ℕ}

/-- A lookup takes nothing away, or the one entry that it finds too old. -/
theorem get_entries (c : TimedCache α) (now : ℕ) (name : String) :
    (c.get now name).2.entries = c.entries ∨
      ∃ entry, c.entries.get? name = some entry ∧ c.isFresh now entry = false ∧
        (c.get now name).2.entries = c.entries.erase name := by
  unfold TimedCache.get
  cases hget : c.entries.get? name with
  | none => exact Or.inl rfl
  | some entry =>
    cases hfresh : c.isFresh now entry with
    | true => exact Or.inl (by simp [hfresh])
    | false => exact Or.inr ⟨entry, rfl, hfresh, by simp [hfresh]⟩

theorem get_sublist (c : TimedCache α) (now : ℕ) (name : String) :
    (c.get now name).2.entries.Sublist c.entries := by
  rcases c.get_entries now name with hsame | ⟨-, -, -, herase⟩
  · rw [hsame]
  · rw [herase]
    exact Named.erase_sublist _ _

theorem get_maxEntries (c : TimedCache α) (now : ℕ) (name : String) :
    (c.get now name).2.maxEntries = c.maxEntries := by
  unfold TimedCache.get
  split
  · rfl
  · split <;> rfl

theorem get_ttl (c : TimedCache α) (now : ℕ) (name : String) : (c.get now name).2.ttl = c.ttl := by
  unfold TimedCache.get
  split
  · rfl
  · split <;> rfl

theorem mem_get (hc : c.Distinct) {entry : String × Stored α} (hmem : entry ∈ c.entries)
    (hfresh : c.isFresh now entry.2 = true) (name : String) :
    entry ∈ (c.get now name).2.entries := by
  rcases c.get_entries now name with hsame | ⟨stale, hget, hold, herase⟩
  · rwa [hsame]
  · rw [herase, Named.erase_eq_filter hc]
    refine List.mem_filter.2 ⟨hmem, decide_eq_true ?_⟩
    rintro rfl
    rw [Named.get?_of_mem hc hmem] at hget
    rw [Option.some.inj hget, hold] at hfresh
    exact Bool.false_ne_true hfresh

/-- What is found is a fresh entry. -/
theorem get_eq_some_iff (hc : c.Distinct) : (c.get now name).1 = some value ↔
    ∃ entry, (name, entry) ∈ c.entries ∧ c.isFresh now entry = true ∧ entry.value = value := by
  unfold TimedCache.get
  constructor
  · intro h
    split at h
    · exact absurd h (by simp)
    · rename_i entry hget
      split at h
      · rename_i hfresh
        exact ⟨entry, Named.mem_of_get? hget, hfresh, Option.some.inj h⟩
      · exact absurd h (by simp)
  · rintro ⟨entry, hmem, hfresh, rfl⟩
    rw [Named.get?_of_mem hc hmem]
    simp only [hfresh, if_true]

theorem Ticking.advance_cache (t : Ticking α) (ms : ℕ) : (t.advance ms).cache = t.cache ∨
    ∃ due, due ≤ t.now + ms ∧ (t.advance ms).cache = (t.cache.sweep due).2 := by
  cases hsweeper : t.sweeper with
  | none => exact Or.inl (by simp [advance, hsweeper])
  | some sweeper =>
    have hsweeps := sweeper.foldl_sweep_dueIn t.cache t.now (t.now + ms)
    cases hlast : sweeper.lastDue? t.now (t.now + ms) with
    | none =>
      rw [hlast] at hsweeps
      exact Or.inl (by rw [advance, hsweeper]; exact hsweeps)
    | some due =>
      rw [hlast] at hsweeps
      exact Or.inr ⟨due, Sweeper.lastDue?_le hlast, by rw [advance, hsweeper]; exact hsweeps⟩

/-- What holds of a cache after some actions, whether it has been above its bound or not. -/
structure Tracks (ttl : ℕ) (actions : List (Action α)) (t : Ticking α) : Prop where
  distinct : t.cache.Distinct
  ttl : t.cache.ttl = ttl
  recalls : Recalls actions t.cache t.now

theorem Tracks.after {ttl : ℕ} (h : Tracks ttl actions t) (a : Action α) :
    Tracks ttl (actions ++ [a]) (a.after t) := by
  cases a with
  | get name =>
    refine ⟨h.distinct.get _ _, (get_ttl _ _ _).trans h.ttl, h.recalls.next ?_ fun _ _ => id⟩
    rcases t.cache.get_entries t.now name with hsame | ⟨-, -, -, herase⟩
    · rw [Action.after, hsame]
      exact List.Subset.refl _
    · rw [Action.after, herase]
      exact (Named.erase_sublist _ _).subset
  | set name value =>
    refine ⟨h.distinct.set _ _ _, ?_, h.recalls.set h.distinct name value⟩
    rw [← h.ttl, Action.after, TimedCache.set, TimedCache.trim]
    split <;> rfl
  | invalidate name =>
    refine ⟨h.distinct.invalidate name, h.ttl,
      h.recalls.next (Named.erase_sublist _ _).subset fun entry hentry => ?_⟩
    rw [Action.after, TimedCache.invalidate, Named.erase_eq_filter h.distinct] at hentry
    exact fun hname => of_decide_eq_true (List.mem_filter.1 hentry).2 hname.symm
  | clear =>
    exact ⟨List.nodup_nil, h.ttl, fun entry hentry => absurd hentry List.not_mem_nil⟩
  | sweep =>
    exact ⟨h.distinct.sweep _, h.ttl, h.recalls.next (List.filter_subset_self _) fun _ _ => id⟩
  | advance ms =>
    -- The clock alone takes nothing away; the last sweep that was due on the way stands for all.
    rcases t.advance_cache ms with hsame | ⟨due, -, hswept⟩
    · refine ⟨?_, ?_, h.recalls.next ?_ fun _ _ => id⟩
      · rw [Action.after, hsame]; exact h.distinct
      · rw [Action.after, hsame]; exact h.ttl
      · rw [Action.after, hsame]; exact List.Subset.refl _
    · refine ⟨?_, ?_, h.recalls.next ?_ fun _ _ => id⟩
      · rw [Action.after, hswept]; exact h.distinct.sweep due
      · rw [Action.after, hswept]; exact h.ttl
      · rw [Action.after, hswept]; exact List.filter_subset_self _
  | startSweeper period =>
    exact ⟨h.distinct, h.ttl, h.recalls.next (List.Subset.refl _) fun _ _ => id⟩
  | stopSweeper => exact ⟨h.distinct, h.ttl, h.recalls.next (List.Subset.refl _) fun _ _ => id⟩

/-- Sweeps and lookups take away only what is too old. -/
theorem Complete.after (h : Complete actions t.cache t.now) (hc : t.cache.Distinct)
    (a : Action α) (hfits : ∀ name value, a = .set name value →
      (t.cache.place t.now name value).size ≤ t.cache.maxEntries) :
    Complete (actions ++ [a]) (a.after t).cache (a.after t).now := by
  cases a with
  | get name =>
    refine h.next (by simp) (get_ttl _ _ _) fun entry hmem _ hfresh => ?_
    exact mem_get hc hmem hfresh name
  | set name value => exact h.set hc (hfits name value rfl)
  | invalidate name =>
    refine h.next (by simp) rfl fun entry hmem huntouched _ => ?_
    rw [Action.after, TimedCache.invalidate, Named.erase_eq_filter hc]
    exact List.mem_filter.2 ⟨hmem, decide_eq_true fun hname => huntouched hname.symm⟩
  | clear => exact h.next (by simp) rfl fun entry _ huntouched _ => absurd trivial huntouched
  | sweep =>
    refine h.next (by simp) rfl fun entry hmem _ hfresh => ?_
    exact mem_sweep_iff.2 ⟨hmem, hfresh⟩
  | advance ms =>
    rcases t.advance_cache ms with hsame | ⟨due, hdue, hswept⟩
    · refine h.next (by simp) (by rw [Action.after, hsame]) fun entry hmem _ _ => ?_
      rwa [Action.after, hsame]
    · refine h.next (by simp) (by rw [Action.after, hswept]; rfl) fun entry hmem _ hfresh => ?_
      rw [Action.after, hswept]
      exact mem_sweep_iff.2 ⟨hmem, isFresh_of_le hfresh hdue⟩
  | startSweeper period => exact h.next (by simp) rfl fun entry hmem _ _ => hmem
  | stopSweeper => exact h.next (by simp) rfl fun entry hmem _ _ => hmem

theorem Ticking.afterAll_append_singleton (t : Ticking α) (actions : List (Action α))
    (a : Action α) : t.afterAll (actions ++ [a]) = a.after (t.afterAll actions) := by
  rw [afterAll, List.foldl_append]
  rfl

theorem tracks_afterAll (ttl maxEntries now : ℕ) (actions : List (Action α)) :
    Tracks ttl actions ((Ticking.start ttl maxEntries now).afterAll actions) := by
  induction actions using List.reverseRecOn with
  | nil =>
    exact ⟨distinct_create ttl maxEntries, rfl, fun entry hentry => absurd hentry List.not_mem_nil⟩
  | append_singleton actions a ih =>
    rw [Ticking.afterAll_append_singleton]
    exact ih.after a

theorem complete_afterAll {ttl maxEntries now : ℕ} {actions : List (Action α)}
    (hwithin : (Ticking.start ttl maxEntries now).StaysWithin actions) :
    Complete actions ((Ticking.start ttl maxEntries now).afterAll actions).cache
      ((Ticking.start ttl maxEntries now).afterAll actions).now := by
  induction actions using List.reverseRecOn with
  | nil => exact fun name value age hlast => absurd hlast not_lastSet_nil
  | append_singleton actions a ih =>
    have hearlier : (Ticking.start ttl maxEntries now).StaysWithin actions := by
      rintro before name value after rfl
      exact hwithin before name value (after ++ [a]) (by simp)
    rw [Ticking.afterAll_append_singleton]
    refine (ih hearlier).after (tracks_afterAll ttl maxEntries now actions).distinct a ?_
    rintro name value rfl
    exact hwithin actions name value [] rfl

/-- What a lookup finds at any moment of a run is the value that the name was set to last, less than
the time to live ago, and not dropped since. When no value has brought the cache above its bound the
lookup finds every such value, whatever sweeps there were. -/
theorem get_iff_lastSet (ttl maxEntries now : ℕ) (actions : List (Action α)) (name : String)
    (value : α) :
    let t := (Ticking.start ttl maxEntries now).afterAll actions
    ((t.cache.get t.now name).1 = some value → ∃ age, LastSet actions name value age ∧ age < ttl) ∧
      ((Ticking.start ttl maxEntries now).StaysWithin actions →
        ((t.cache.get t.now name).1 = some value ↔
          ∃ age, LastSet actions name value age ∧ age < ttl)) := by
  intro t
  have htracks : Tracks ttl actions t := tracks_afterAll ttl maxEntries now actions
  have hsound : (t.cache.get t.now name).1 = some value →
      ∃ age, LastSet actions name value age ∧ age < ttl := by
    intro hget
    obtain ⟨entry, hmem, hfresh, rfl⟩ := (get_eq_some_iff htracks.distinct).1 hget
    obtain ⟨age, hlast, (hnow : entry.time + age = t.now)⟩ := htracks.recalls _ hmem
    have hage : t.now - entry.time < ttl := htracks.ttl ▸ of_decide_eq_true hfresh
    exact ⟨age, hlast, by omega⟩
  refine ⟨hsound, fun hwithin => ⟨hsound, ?_⟩⟩
  rintro ⟨age, hlast, hage⟩
  have hcomplete : Complete actions t.cache t.now := complete_afterAll hwithin
  obtain ⟨entry, hmem, hvalue, htime⟩ :=
    hcomplete name value age hlast (htracks.ttl.symm ▸ hage)
  have hfresh : t.now - entry.time < t.cache.ttl := by
    rw [htracks.ttl]
    omega
  exact (get_eq_some_iff htracks.distinct).2 ⟨entry, hmem, decide_eq_true hfresh, hvalue⟩

end

end TimedCache

end RecordShelf

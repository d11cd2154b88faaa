import RecordShelf.Proofs.Cache.LastSet

/-!
# What a cache evicts

The entries of a cache stand in the order in which they were set. So the ones that are dropped when
the cache outgrows its bound were all set before those that stay, and a cache whose bound is
positive is within it after every action. An entry that is still fresh is only evicted when all that
stay are.
-/

namespace RecordShelf.TimedCache

namespace Action
variable {α : Type}

def sets (name : String) : Action α → Bool
  | .set other _ => other = name
  | _ => false

/-- The moments at which an action works on the cache. -/
def moments (t : Ticking α) : Action α → List ℕ
  | .advance ms => t.sweeper.elim [] (·.dueIn t.now (t.now + ms))
  | _ => [t.now]

end Action

variable {α : Type} {c : TimedCache α} {t : Ticking α} {actions : List (Action α)}
  {maxEntries : ℕ}

/-- How many actions there were after the one that set a name last. -/
def since (actions : List (Action α)) (name : String) : ℕ :=
  actions.reverse.findIdx (Action.sets name)

theorem since_append_singleton (actions : List (Action α)) (a : Action α) (name : String) :
    since (actions ++ [a]) name = if a.sets name then 0 else since actions name + 1 := by
  rw [since, List.reverse_append, List.reverse_singleton, List.singleton_append, List.findIdx_cons]
  cases a.sets name <;> rfl

/-- One entry was set before another: at no later moment, and by an earlier action. -/
def SetEarlier (actions : List (Action α)) (old new : String × Stored α) : Prop :=
  old.2.time ≤ new.2.time ∧ since actions new.1 < since actions old.1

theorem SetEarlier.next {old new : String × Stored α} (h : SetEarlier actions old new)
    {a : Action α} (hset : a.sets old.1 = false) : SetEarlier (actions ++ [a]) old new := by
  obtain ⟨htime, hlt⟩ := h
  refine ⟨htime, ?_⟩
  rw [since_append_singleton, since_append_singleton, hset, if_neg Bool.false_ne_true]
  split_ifs
  · exact Nat.succ_pos _
  · exact Nat.succ_lt_succ hlt

/-! ## The bound -/

theorem length_erase_le (r : Named α) (name : String) : (r.erase name).length ≤ r.length :=
  (Named.erase_sublist r name).length_le

theorem size_place_le (c : TimedCache α) (now : ℕ) (name : String) (value : α) :
    (c.place now name value).size ≤ c.size + 1 := by
  have herase := length_erase_le c.entries name
  rw [size, place, List.length_append, List.length_singleton]
  exact Nat.succ_le_succ herase

theorem batch_pos (c : TimedCache α) : 0 < c.batch := by
  unfold batch
  omega

theorem batch_le (h : 0 < c.maxEntries) : c.batch ≤ c.maxEntries := by
  unfold batch
  omega

/-- What a cache that is above its bound loses, and what stays. -/
theorem trim_of_lt (h : c.maxEntries < c.size) :
    c.trim = { c with
      entries := c.entries.drop c.batch
      counters := c.counters.evict (min c.batch c.size) } := if_pos h

theorem trim_of_le (h : c.size ≤ c.maxEntries) : c.trim = c := if_neg (Nat.not_lt.2 h)

theorem trim_sublist (c : TimedCache α) : c.trim.entries.Sublist c.entries := by
  rcases Nat.lt_or_ge c.maxEntries c.size with h | h
  · rw [trim_of_lt h]
    exact List.drop_sublist _ _
  · rw [trim_of_le h]

theorem trim_maxEntries (c : TimedCache α) : c.trim.maxEntries = c.maxEntries := by
  unfold trim
  split <;> rfl

/-- The cache has outgrown its bound by one entry at most. -/
theorem size_trim_le (hone : c.size ≤ c.maxEntries + 1) : c.trim.size ≤ c.maxEntries := by
  rcases Nat.lt_or_ge c.maxEntries c.size with h | h
  · have hpos := c.batch_pos
    rw [trim_of_lt h, size, List.length_drop]
    have hsize : c.entries.length = c.size := rfl
    omega
  · rwa [trim_of_le h]

/-! ## Whole runs -/

/-- An action that sets nothing only takes entries away. -/
theorem Action.after_sublist (t : Ticking α) {a : Action α}
    (hset : ∀ name value, a ≠ .set name value) :
    (a.after t).cache.entries.Sublist t.cache.entries ∧
      (a.after t).cache.maxEntries = t.cache.maxEntries := by
  cases a with
  | get name => exact ⟨t.cache.get_sublist t.now name, t.cache.get_maxEntries t.now name⟩
  | set name value => exact absurd rfl (hset name value)
  | invalidate name => exact ⟨Named.erase_sublist _ _, rfl⟩
  | clear => exact ⟨List.nil_sublist _, rfl⟩
  | sweep => exact ⟨List.filter_sublist, rfl⟩
  | advance ms =>
    rcases t.advance_cache ms with hsame | ⟨due, -, hswept⟩
    · rw [Action.after, hsame]
      exact ⟨List.Sublist.refl _, rfl⟩
    · rw [Action.after, hswept]
      exact ⟨List.filter_sublist, rfl⟩
  | startSweeper period => exact ⟨List.Sublist.refl _, rfl⟩
  | stopSweeper => exact ⟨List.Sublist.refl _, rfl⟩

/-- The cache is within its bound, and its entries stand in the order in which they were set. -/
structure InOrder (maxEntries : ℕ) (actions : List (Action α)) (t : Ticking α) : Prop where
  bound : t.cache.maxEntries = maxEntries
  size_le : t.cache.size ≤ maxEntries
  order : t.cache.entries.Pairwise (SetEarlier actions)

/-- A value that is set is the newest one. -/
theorem InOrder.place (h : InOrder maxEntries actions t) (hc : t.cache.Distinct)
    (hrecalls : Recalls actions t.cache t.now) (name : String) (value : α) :
    (t.cache.place t.now name value).entries.Pairwise
      (SetEarlier (actions ++ [.set name value])) := by
  have hothers : ∀ entry ∈ t.cache.entries.erase name,
      entry ∈ t.cache.entries ∧ (Action.set name value).sets entry.1 = false := by
    intro entry hentry
    rw [Named.erase_eq_filter hc] at hentry
    obtain ⟨hmem, hne⟩ := List.mem_filter.1 hentry
    exact ⟨hmem, decide_eq_false fun heq => of_decide_eq_true hne heq.symm⟩
  have hkept := h.order.sublist (Named.erase_sublist t.cache.entries name)
  refine List.pairwise_append.2 ⟨?_, List.pairwise_singleton _ _, ?_⟩
  · exact hkept.imp_of_mem fun hold _ hearlier => hearlier.next (hothers _ hold).2
  · intro old hold new hnew
    obtain rfl := List.mem_singleton.1 hnew
    obtain ⟨hmem, hother⟩ := hothers old hold
    obtain ⟨age, -, hnow⟩ := hrecalls old hmem
    have htime : old.2.time ≤ t.now := by omega
    refine ⟨htime, ?_⟩
    have hself : (Action.set name value).sets name = true := decide_eq_true rfl
    rw [since_append_singleton, since_append_singleton, hother, if_pos hself]
    exact Nat.succ_pos _

theorem InOrder.after {ttl : ℕ} (h : InOrder maxEntries actions t) (htracks : Tracks ttl actions t)
    (a : Action α) : InOrder maxEntries (actions ++ [a]) (a.after t) := by
  by_cases hset : ∃ name value, a = .set name value
  · obtain ⟨name, value, rfl⟩ := hset
    have hplace := h.place htracks.distinct htracks.recalls name value
    have hone : (t.cache.place t.now name value).size ≤ t.cache.maxEntries + 1 := by
      have hgrown := t.cache.size_place_le t.now name value
      have hsize := h.size_le
      rw [← h.bound] at hsize
      omega
    refine ⟨(trim_maxEntries _).trans h.bound, ?_, hplace.sublist (trim_sublist _)⟩
    rw [← h.bound]
    exact size_trim_le hone
  · have hnone : ∀ name value, a ≠ .set name value :=
      fun name value heq => hset ⟨name, value, heq⟩
    obtain ⟨hsub, hbound⟩ := Action.after_sublist t hnone
    refine ⟨hbound.trans h.bound, le_trans hsub.length_le h.size_le, ?_⟩
    have hsets : ∀ name, a.sets name = false := by
      intro name
      cases a with
      | set other value => exact absurd rfl (hnone other value)
      | _ => rfl
    exact (h.order.sublist hsub).imp fun hearlier => hearlier.next (hsets _)

theorem inOrder_afterAll (ttl maxEntries now : ℕ) (actions : List (Action α)) :
    InOrder maxEntries actions ((Ticking.start ttl maxEntries now).afterAll actions) := by
  induction actions using List.reverseRecOn with
  | nil => exact ⟨rfl, Nat.zero_le _, List.Pairwise.nil⟩
  | append_singleton actions a ih =>
    rw [Ticking.afterAll_append_singleton]
    exact ih.after (tracks_afterAll ttl maxEntries now actions) a

/-! ## Evictions -/

/-- An entry that is fresh stays fresh if it is set later. -/
theorem isFresh_of_time_le {now : ℕ} {old new : Stored α} (h : c.isFresh now old = true)
    (htime : old.time ≤ new.time) : c.isFresh now new = true := by
  have hlt : now - old.time < c.ttl := of_decide_eq_true h
  exact decide_eq_true (by omega)

/-- Sweeps remove only what one of them finds too old. -/
theorem exists_stale_of_foldl_sweep {old : String × Stored α} (moments : List ℕ)
    (hmem : old ∈ c.entries)
    (hgone : old ∉ (moments.foldl (fun c m => (c.sweep m).2) c).entries) :
    ∃ m ∈ moments, c.isFresh m old.2 = false := by
  induction moments generalizing c with
  | nil => exact absurd hmem hgone
  | cons m moments ih =>
    cases hfresh : c.isFresh m old.2 with
    | false => exact ⟨m, List.mem_cons_self, hfresh⟩
    | true =>
      obtain ⟨n, hn, hstale⟩ := ih (mem_sweep_iff.2 ⟨hmem, hfresh⟩) hgone
      exact ⟨n, List.mem_cons_of_mem m hn, hstale⟩

/-- A value that brings the cache above its bound pushes out as many entries as the bound tells, all
of them set before those that stay. -/
theorem InOrder.evicted {ttl : ℕ} (h : InOrder maxEntries actions t)
    (htracks : Tracks ttl actions t) (hpos : 0 < maxEntries) {name : String} {value : α}
    (hover : maxEntries < (t.cache.place t.now name value).size) :
    ∃ evicted, evicted.length = max (maxEntries * 20 / 100) 1 ∧
      (t.cache.place t.now name value).entries =
        evicted ++ (t.cache.set t.now name value).entries ∧
      (t.cache.set t.now name value).counters = t.cache.counters.evict evicted.length ∧
      ∀ old ∈ evicted, ∀ kept ∈ (t.cache.set t.now name value).entries,
        SetEarlier (actions ++ [.set name value]) old kept := by
  obtain ⟨placed, hplaced⟩ : ∃ placed, placed = t.cache.place t.now name value := ⟨_, rfl⟩
  have hbound : placed.maxEntries = maxEntries := by rw [hplaced]; exact h.bound
  have horder := h.place htracks.distinct htracks.recalls name value
  rw [← hplaced] at hover horder ⊢
  have hset : t.cache.set t.now name value = placed.trim := by rw [hplaced]; rfl
  have hbatch : placed.batch ≤ placed.entries.length := by
    have hle : placed.batch ≤ maxEntries := hbound ▸ batch_le (hbound.symm ▸ hpos)
    exact le_trans hle (le_of_lt hover)
  have hlength : (placed.entries.take placed.batch).length = placed.batch := by
    rw [List.length_take, Nat.min_eq_left hbatch]
  rw [hset, trim_of_lt (hbound.symm ▸ hover)]
  refine ⟨placed.entries.take placed.batch, ?_, (List.take_append_drop _ _).symm, ?_, ?_⟩
  · rw [hlength, batch, hbound]
  · rw [hlength, size, Nat.min_eq_left hbatch, hplaced]
    rfl
  · rw [← List.take_append_drop placed.batch placed.entries] at horder
    exact (List.pairwise_append.1 horder).2.2

/-- What has just been set is not evicted. -/
theorem mem_set_self (hpos : 0 < c.maxEntries) (now : ℕ) (name : String) (value : α) :
    (name, Stored.mk value now) ∈ (c.set now name value).entries := by
  rcases Nat.lt_or_ge c.maxEntries (c.place now name value).size with hover | hfits
  · have hset : (c.set now name value).entries =
        (c.entries.erase name ++ [(name, Stored.mk value now)]).drop c.batch :=
      congrArg TimedCache.entries (trim_of_lt (c := c.place now name value) hover)
    have hbatch : c.batch ≤ (c.entries.erase name).length := by
      rw [size, place, List.length_append, List.length_singleton] at hover
      exact le_trans (batch_le hpos) (Nat.le_of_lt_succ hover)
    rw [hset, List.drop_append_of_le_length hbatch]
    exact List.mem_append_right _ (List.mem_singleton_self _)
  · rw [TimedCache.set, trim_of_le hfits]
    exact List.mem_append_right _ (List.mem_singleton_self _)

/-- When an entry is evicted it is too old, or all that stay are as fresh as it is. -/
theorem InOrder.fresh_of_evicted {ttl : ℕ} (h : InOrder maxEntries actions t)
    (htracks : Tracks ttl actions t) (hpos : 0 < maxEntries) (a : Action α)
    {old : String × Stored α} (hmem : old ∈ t.cache.entries) (huntouched : ¬a.Touches old.1)
    (hgone : old ∉ (a.after t).cache.entries) :
    ∃ moment ∈ a.moments t, t.cache.isFresh moment old.2 = true →
      ∀ kept ∈ (a.after t).cache.entries, t.cache.isFresh moment kept.2 = true := by
  cases a with
  | get name =>
    refine ⟨t.now, List.mem_singleton_self _, fun hfresh => ?_⟩
    exact absurd (mem_get htracks.distinct hmem hfresh name) hgone
  | set name value =>
    refine ⟨t.now, List.mem_singleton_self _, fun hfresh kept hkept => ?_⟩
    have hplaced : old ∈ (t.cache.place t.now name value).entries := by
      refine List.mem_append_left _ ?_
      rw [Named.erase_eq_filter htracks.distinct]
      exact List.mem_filter.2 ⟨hmem, decide_eq_true fun hname => huntouched hname.symm⟩
    rcases Nat.lt_or_ge maxEntries (t.cache.place t.now name value).size with hover | hfits
    · obtain ⟨evicted, -, hsplit, -, hearlier⟩ := h.evicted htracks hpos hover
      rw [hsplit] at hplaced
      have hevicted : old ∈ evicted := (List.mem_append.1 hplaced).resolve_right hgone
      exact isFresh_of_time_le hfresh (hearlier old hevicted kept hkept).1
    · rw [← h.bound] at hfits
      rw [Action.after, TimedCache.set, trim_of_le hfits] at hgone
      exact absurd hplaced hgone
  | invalidate name =>
    refine ⟨t.now, List.mem_singleton_self _, fun _ => absurd ?_ hgone⟩
    rw [Action.after, TimedCache.invalidate, Named.erase_eq_filter htracks.distinct]
    exact List.mem_filter.2 ⟨hmem, decide_eq_true fun hname => huntouched hname.symm⟩
  | clear => exact absurd trivial huntouched
  | sweep =>
    refine ⟨t.now, List.mem_singleton_self _, fun hfresh => ?_⟩
    exact absurd (mem_sweep_iff.2 ⟨hmem, hfresh⟩) hgone
  | advance ms =>
    obtain ⟨m, hm, hstale⟩ := exists_stale_of_foldl_sweep _ hmem hgone
    refine ⟨m, hm, fun hfresh => ?_⟩
    rw [hstale] at hfresh
    exact absurd hfresh Bool.false_ne_true
  | startSweeper period => exact absurd hmem hgone
  | stopSweeper => exact absurd hmem hgone

/-- A cache with a positive bound stays within it, and its entries are what their names were set to
last, with the moments at which that was done. A value that brings it above the bound pushes out a
fifth of the bound, or one entry if that is less; those were set before all that stay, at no later
moment and by an earlier action, and the new value is not among them. No fresh entry is evicted
while one that is too old stays. -/
theorem evicts_oldest (ttl now : ℕ) {maxEntries : ℕ} (hpos : 0 < maxEntries)
    (actions : List (Action α)) :
    let t := (Ticking.start ttl maxEntries now).afterAll actions
    t.cache.size ≤ maxEntries ∧ Recalls actions t.cache t.now ∧
      (∀ name value,
        (name, Stored.mk value t.now) ∈ (t.cache.set t.now name value).entries ∧
          (maxEntries < (t.cache.place t.now name value).size →
            ∃ evicted, evicted.length = max (maxEntries * 20 / 100) 1 ∧
              (t.cache.place t.now name value).entries =
                evicted ++ (t.cache.set t.now name value).entries ∧
              (t.cache.set t.now name value).counters = t.cache.counters.evict evicted.length ∧
              ∀ old ∈ evicted, ∀ kept ∈ (t.cache.set t.now name value).entries,
                SetEarlier (actions ++ [.set name value]) old kept)) ∧
      ∀ a : Action α, ∀ old ∈ t.cache.entries, ¬a.Touches old.1 → old ∉ (a.after t).cache.entries →
        ∃ moment ∈ a.moments t, t.cache.isFresh moment old.2 = true →
          ∀ kept ∈ (a.after t).cache.entries, t.cache.isFresh moment kept.2 = true := by
  intro t
  have htracks : Tracks ttl actions t := tracks_afterAll ttl maxEntries now actions
  have horder : InOrder maxEntries actions t := inOrder_afterAll ttl maxEntries now actions
  refine ⟨horder.size_le, htracks.recalls, fun name value => ⟨?_, fun hover => ?_⟩, ?_⟩
  · exact mem_set_self (horder.bound.symm ▸ hpos) t.now name value
  · exact horder.evicted htracks hpos hover
  · exact fun a old hmem huntouched hgone =>
      horder.fresh_of_evicted htracks hpos a hmem huntouched hgone

theorem evicts_oldest_of_three :
    let t := (Ticking.start 60000 3 0).afterAll [.set "a" 1, .set "b" 2, .set "c" 3]
    0 < 3 ∧ 3 < (t.cache.place t.now "d" 4).size ∧
      (Named.names (t.cache.set t.now "d" 4).entries = ["b", "c", "d"]) ∧
      ∃ evicted, evicted.length = 1 ∧
        (t.cache.place t.now "d" 4).entries = evicted ++ (t.cache.set t.now "d" 4).entries := by
  intro t
  have hpos : 0 < 3 := by decide
  obtain ⟨-, -, hset, -⟩ := evicts_oldest 60000 0 hpos [.set "a" 1, .set "b" 2, .set "c" 3]
  have hover : 3 < (t.cache.place t.now "d" 4).size := by decide
  obtain ⟨evicted, hlength, hsplit, -⟩ := (hset "d" 4).2 hover
  exact ⟨hpos, hover, by decide, evicted, hlength, hsplit⟩

end RecordShelf.TimedCache

import RecordShelf.Cache.Caches
import RecordShelf.Proofs.Named

/-!
# Names in the caches

No name stands twice in a cache. Everything that is done with a cache keeps it so, and then a value
that has been dropped is not found again. A cache into which only right values are put holds only
right ones, and when the right value of one name changes it is enough to drop that name.
-/

namespace RecordShelf

namespace TimedCache
variable {α : Type} {c : TimedCache α}

/-- No name stands twice among the entries. -/
def Distinct (c : TimedCache α) : Prop := c.entries.names.Nodup

theorem distinct_create (ttl maxEntries : Nat) : (create ttl maxEntries : TimedCache α).Distinct :=
  List.nodup_nil

theorem Distinct.of_sublist {entries : Named (Stored α)} (h : c.Distinct)
    (hsub : entries.Sublist c.entries) : (Named.names entries).Nodup :=
  (hsub.map _).nodup h

theorem Distinct.get (h : c.Distinct) (now : Nat) (name : String) : (c.get now name).2.Distinct := by
  unfold TimedCache.get
  split
  · exact h
  · split
    · exact h
    · exact Named.nodup_names_erase h name

theorem Distinct.place (h : c.Distinct) (now : Nat) (name : String) (value : α) :
    (c.place now name value).Distinct := by
  have hgone := Named.get?_eq_none_iff.1 (Named.get?_erase_self h name)
  rw [Distinct, TimedCache.place, ← Named.insert_eq_append hgone]
  exact Named.nodup_names_insert (Named.nodup_names_erase h name) name _

theorem Distinct.trim (h : c.Distinct) : c.trim.Distinct := by
  unfold TimedCache.trim
  split
  · exact h.of_sublist (List.drop_sublist _ _)
  · exact h

theorem Distinct.set (h : c.Distinct) (now : Nat) (name : String) (value : α) :
    (c.set now name value).Distinct :=
  (h.place now name value).trim

theorem Distinct.invalidate (h : c.Distinct) (name : String) : (c.invalidate name).2.Distinct :=
  Named.nodup_names_erase h name

theorem Distinct.sweep (h : c.Distinct) (now : Nat) : (c.sweep now).2.Distinct :=
  h.of_sublist List.filter_sublist

/-! ## Dropped values -/

theorem get_of_absent {name : String} (h : c.entries.get? name = none) (now : Nat) :
    c.get now name = (none, { c with counters := c.counters.miss }) := by
  rw [TimedCache.get, h]

theorem absent_invalidate (h : c.Distinct) (name : String) :
    (c.invalidate name).2.entries.get? name = none :=
  Named.get?_erase_self h name

/-! ## Right values -/

section
variable {right right' : String → α → Prop}

/-- Every value in the cache is right for its name. -/
def Agrees (c : TimedCache α) (right : String → α → Prop) : Prop :=
  ∀ entry ∈ c.entries, right entry.1 entry.2.value

theorem agrees_create (ttl maxEntries : Nat) (right : String → α → Prop) :
    (create ttl maxEntries).Agrees right := fun _ h => absurd h List.not_mem_nil

theorem agrees_clear (c : TimedCache α) (right : String → α → Prop) : c.clear.Agrees right :=
  fun _ h => absurd h List.not_mem_nil

theorem Agrees.mono (h : c.Agrees right) (himp : ∀ name v, right name v → right' name v) :
    c.Agrees right' := fun entry hentry => himp _ _ (h entry hentry)

theorem Agrees.of_subset {c' : TimedCache α} (h : c.Agrees right) (hsub : c'.entries ⊆ c.entries) :
    c'.Agrees right := fun entry hentry => h entry (hsub hentry)

theorem Agrees.get (h : c.Agrees right) (now : Nat) (name : String) :
    (c.get now name).2.Agrees right := by
  apply h.of_subset
  unfold TimedCache.get
  split
  · exact List.Subset.refl _
  · split
    · exact List.Subset.refl _
    · exact (Named.erase_sublist _ _).subset

/-- What is found is right. -/
theorem Agrees.right_of_get (h : c.Agrees right) {now : Nat} {name : String} {v : α}
    (hget : (c.get now name).1 = some v) : right name v := by
  unfold TimedCache.get at hget
  split at hget
  · exact absurd hget (by simp)
  · rename_i entry hentry
    split at hget
    · obtain rfl := Option.some.inj hget
      exact h _ (Named.mem_of_get? hentry)
    · exact absurd hget (by simp)

theorem Agrees.set (h : c.Agrees right) {name : String} {v : α} (hv : right name v) (now : Nat) :
    (c.set now name v).Agrees right := by
  have hplace : (c.place now name v).Agrees right := by
    intro entry hentry
    rcases List.mem_append.1 hentry with hentry | hentry
    · exact h entry ((Named.erase_sublist _ _).subset hentry)
    · obtain rfl := List.mem_singleton.1 hentry
      exact hv
  apply hplace.of_subset
  unfold TimedCache.set TimedCache.trim
  split
  · exact List.drop_subset _ _
  · exact List.Subset.refl _

theorem Agrees.sweep (h : c.Agrees right) (now : Nat) : (c.sweep now).2.Agrees right :=
  h.of_subset (List.filter_subset_self _)

/-- Only the value of the dropped name may have become another one. -/
theorem Agrees.invalidate (h : c.Agrees right) (hc : c.Distinct) {name : String}
    (himp : ∀ other v, other ≠ name → right other v → right' other v) :
    (c.invalidate name).2.Agrees right' := by
  intro entry hentry
  rw [TimedCache.invalidate, Named.erase_eq_filter hc] at hentry
  obtain ⟨hmem, hne⟩ := List.mem_filter.1 hentry
  exact himp _ _ (of_decide_eq_true hne) (h entry hmem)

end

end TimedCache

namespace Caches
variable {c : Caches}

/-- No name stands twice in a namespace. -/
def Distinct (c : Caches) : Prop := ∀ ns, (c.cache ns).Distinct

theorem cache_create (ttl : Namespace → Nat) (maxEntries : Nat) (ns : Namespace) :
    (create ttl maxEntries).cache ns = .create (ttl ns) maxEntries := by
  cases ns <;> rfl

theorem distinct_create (ttl : Namespace → Nat) (maxEntries : Nat) :
    (create ttl maxEntries).Distinct := by
  intro ns
  rw [cache_create]
  exact TimedCache.distinct_create _ _

theorem Distinct.setCache (h : c.Distinct) (ns : Namespace) {cache : TimedCache Json}
    (hcache : cache.Distinct) : (c.setCache ns cache).Distinct := by
  intro other
  by_cases hne : other = ns
  · rw [hne, cache_setCache_self]
    exact hcache
  · rw [cache_setCache_of_ne c cache hne]
    exact h other

theorem Distinct.get (h : c.Distinct) (now : Nat) (ns : Namespace) (key : String) :
    (c.get now ns key).2.Distinct :=
  h.setCache ns ((h ns).get now key)

theorem Distinct.set (h : c.Distinct) (now : Nat) (ns : Namespace) (key : String) (value : Json) :
    (c.set now ns key value).Distinct :=
  h.setCache ns ((h ns).set now key value)

theorem Distinct.invalidate (h : c.Distinct) (ns : Namespace) (key : String) :
    (c.invalidate ns key).Distinct :=
  h.setCache ns ((h ns).invalidate key)

theorem Distinct.sweepAll (h : c.Distinct) (now : Nat) (spaces : List Namespace) :
    (sweepAll now spaces c).2.Distinct := by
  induction spaces generalizing c with
  | nil => exact h
  | cons ns spaces ih => exact ih (h.setCache ns ((h ns).sweep now))

theorem Distinct.sweep (h : c.Distinct) (now : Nat) : (c.sweep now).2.Distinct :=
  h.sweepAll now Namespace.all

theorem absent_invalidate (h : c.Distinct) (ns : Namespace) (key : String) :
    ((c.invalidate ns key).cache ns).entries.get? key = none := by
  rw [Caches.invalidate, cache_setCache_self]
  exact TimedCache.absent_invalidate (h ns) key

/-! ## Right values -/

theorem cache_reset (c : Caches) (ns : Namespace) :
    c.reset.cache ns = (c.cache ns).clear.resetCounters := by
  simp [Caches.reset, Caches.cache]

section
variable {right right' : Namespace → String → Json → Prop}

/-- In every namespace the values are right for their names. -/
def Agrees (c : Caches) (right : Namespace → String → Json → Prop) : Prop :=
  ∀ ns, (c.cache ns).Agrees (right ns)

theorem agrees_create (ttl : Namespace → Nat) (maxEntries : Nat)
    (right : Namespace → String → Json → Prop) : (create ttl maxEntries).Agrees right := by
  intro ns
  rw [cache_create]
  exact TimedCache.agrees_create _ _ _

theorem agrees_reset (c : Caches) (right : Namespace → String → Json → Prop) :
    c.reset.Agrees right := by
  intro ns
  rw [cache_reset]
  exact TimedCache.agrees_clear (c.cache ns) (right ns)

theorem distinct_reset (c : Caches) : c.reset.Distinct := by
  intro ns
  rw [cache_reset]
  exact List.nodup_nil

theorem Agrees.setCache (h : c.Agrees right) {ns : Namespace} {cache : TimedCache Json}
    (hcache : cache.Agrees (right ns)) : (c.setCache ns cache).Agrees right := by
  intro other
  by_cases hne : other = ns
  · rw [hne, cache_setCache_self]
    exact hcache
  · rw [cache_setCache_of_ne c cache hne]
    exact h other

theorem Agrees.get (h : c.Agrees right) (now : Nat) (ns : Namespace) (key : String) :
    (c.get now ns key).2.Agrees right :=
  h.setCache ((h ns).get now key)

theorem Agrees.right_of_get (h : c.Agrees right) {now : Nat} {ns : Namespace} {key : String}
    {v : Json} (hget : (c.get now ns key).1 = some v) : right ns key v :=
  (h ns).right_of_get hget

theorem Agrees.set (h : c.Agrees right) {ns : Namespace} {key : String} {v : Json}
    (hv : right ns key v) (now : Nat) : (c.set now ns key v).Agrees right :=
  h.setCache ((h ns).set hv now)

theorem Agrees.sweepNamespace (h : c.Agrees right) (now : Nat) (ns : Namespace) :
    (c.sweepNamespace now ns).2.Agrees right :=
  h.setCache ((h ns).sweep now)

theorem Agrees.sweepAll (h : c.Agrees right) (now : Nat) (spaces : List Namespace) :
    (sweepAll now spaces c).2.Agrees right := by
  induction spaces generalizing c with
  | nil => exact h
  | cons ns spaces ih => exact ih (h.sweepNamespace now ns)

theorem Agrees.sweep (h : c.Agrees right) (now : Nat) : (c.sweep now).2.Agrees right :=
  h.sweepAll now Namespace.all

theorem Agrees.invalidate (h : c.Agrees right) (hc : c.Distinct) {ns : Namespace} {key : String}
    (himp : ∀ other name v, (other, name) ≠ (ns, key) → right other name v → right' other name v) :
    (c.invalidate ns key).Agrees right' := by
  intro other
  by_cases hne : other = ns
  · subst hne
    rw [Caches.invalidate, cache_setCache_self]
    refine TimedCache.Agrees.invalidate (h other) (hc other) fun name v hname => ?_
    exact himp other name v fun heq => hname (Prod.mk.inj heq).2
  · rw [Caches.invalidate, cache_setCache_of_ne c _ hne]
    refine TimedCache.Agrees.mono (h other) fun name v => ?_
    exact himp other name v fun heq => hne (Prod.mk.inj heq).1

end

end Caches

end RecordShelf

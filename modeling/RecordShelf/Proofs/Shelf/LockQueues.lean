import RecordShelf.Shelf.Locks
import RecordShelf.Proofs.Named
import Mathlib.Logic.Function.Basic
import Mathlib.Data.List.TakeWhile

/-!
# The queues behind the locks

The table of mutexes is one queue of turns for each name: who stands first holds the mutex, and a name
with nobody in its queue has no mutex. References count the queue and the table, so that a mutex is
struck exactly when its queue ends. Asking enters the queue of one name, letting go leaves it, and
all other queues stay as they are.
-/

namespace RecordShelf

/-- All up to the first without a property, who is among them. -/
def upTo {α : Type} (p : α → Bool) : List α → List α
  | [] => []
  | a :: as => if p a then a :: upTo p as else [a]

theorem upTo_map {α β : Type} (p : β → Bool) (f : α → β) (as : List α) :
    upTo p (as.map f) = (upTo (fun a => p (f a)) as).map f := by
  induction as with
  | nil => rfl
  | cons a as ih => cases h : p (f a) <;> simp [upTo, h, ih]

namespace Turn

/-- The turn of someone after `id` has let go. -/
def mark (id : String) (t : Turn) : Turn := if t.id = id then { t with released := true } else t

@[simp] theorem mark_name (id : String) (t : Turn) : (t.mark id).name = t.name := by
  unfold mark
  split_ifs <;> rfl

theorem mark_of_ne {id : String} {t : Turn} (h : t.id ≠ id) : t.mark id = t := if_neg h

theorem map_mark_of_ne {id : String} {ts : List Turn} (h : ∀ t ∈ ts, t.id ≠ id) :
    ts.map (·.mark id) = ts :=
  (List.map_congr_left fun t ht => mark_of_ne (h t ht)).trans (List.map_id' ts)

/-- What is left of those who wait once all who have let go before are served. -/
def unserved (waiting : List Turn) : List Turn := waiting.dropWhile (·.released)

/-- Those who are served when the holder lets go: all who have let go before, and the next. -/
def served (waiting : List Turn) : List Turn := upTo (·.released) waiting

end Turn

namespace Mutex

/-- The mutex of a queue. -/
def ofQueue (holder : Turn) (waiting : List Turn) : Mutex :=
  ⟨waiting.length + 2, some holder, waiting⟩

variable (holder turn : Turn) (waiting : List Turn)

@[simp] theorem isFree_ofQueue : (ofQueue holder waiting).isFree = false := rfl

@[simp] theorem isFree_new : new.isFree = true := rfl

@[simp] theorem refer_lock_new : new.refer.lock turn = ofQueue turn [] := rfl

theorem refer_lock_ofQueue :
    (ofQueue holder waiting).refer.lock turn = ofQueue holder (waiting ++ [turn]) := by
  simp [lock, refer, ofQueue, isFree]

theorem unlock_ofQueue_nil : (ofQueue holder []).unlock = new := rfl

theorem unlock_ofQueue_cons : (ofQueue holder (turn :: waiting)).unlock = ofQueue turn waiting := by
  simp [unlock, forget, ofQueue]

theorem giveUp_ofQueue (id : String) :
    (ofQueue holder waiting).giveUp id = ofQueue holder (waiting.map (·.mark id)) := by
  simp [giveUp, ofQueue, Turn.mark]

theorem isHeldBy_ofQueue {id : String} :
    (ofQueue holder waiting).isHeldBy id = true ↔ holder.id = id := by
  simp [isHeldBy, ofQueue]

theorem isHeldBy_of_isFree {m : Mutex} (h : m.isFree = true) (id : String) :
    m.isHeldBy id = false := by
  rw [isFree, Option.isNone_iff_eq_none] at h
  rw [isHeldBy, h, Option.any_none]

end Mutex

namespace Locks

/-- The part of the table that belongs to the queue of a name. -/
def Shows (l : Locks) (name : String) : List Turn → Prop
  | [] => l.named.get? name = none
  | holder :: waiting => ∃ address, l.named.get? name = some address ∧
      l.mutexes[address]? = some (.ofQueue holder waiting)

/-- A queue is shown as long as its name leads to the same mutex and the mutex stays. -/
theorem Shows.frame {l l' : Locks} {name : String} {turns : List Turn} (h : l.Shows name turns)
    (hname : l'.named.get? name = l.named.get? name)
    (hmutex : ∀ {address}, l.named.get? name = some address →
      l'.mutexes[address]? = l.mutexes[address]?) : l'.Shows name turns := by
  cases turns with
  | nil => exact hname.trans h
  | cons holder waiting =>
    obtain ⟨address, haddress, hm⟩ := h
    exact ⟨address, hname.trans haddress, (hmutex haddress).trans hm⟩

/-- The table stands for a queue of turns for each name. -/
structure Queues (l : Locks) (queue : String → List Turn) : Prop where
  names : l.named.names.Nodup
  apart : ∀ {name other : String} {address : ℕ},
    l.named.get? name = some address → l.named.get? other = some address → name = other
  own : ∀ {name : String} {t : Turn}, t ∈ queue name → t.name = name
  shows : ∀ name, l.Shows name (queue name)
  idle : ∀ {address : ℕ} {m : Mutex}, l.mutexes[address]? = some m →
    m.isFree = true ∨ ∃ name, l.named.get? name = some address

section
variable {l : Locks} {queue : String → List Turn} {name : String} {address : ℕ}

theorem queues_empty : empty.Queues fun _ => [] where
  names := List.nodup_nil
  apart h := nomatch h
  own h := nomatch h
  shows _ := rfl
  idle h := nomatch h

namespace Queues

theorem shows_at (h : l.Queues queue) (hname : l.named.get? name = some address) :
    ∃ holder waiting, queue name = holder :: waiting ∧
      l.mutexes[address]? = some (.ofQueue holder waiting) := by
  have hshows := h.shows name
  cases hq : queue name with
  | nil =>
    rw [hq, Shows, hname] at hshows
    exact nomatch hshows
  | cons holder waiting =>
    rw [hq] at hshows
    obtain ⟨other, hother, hm⟩ := hshows
    rw [hname] at hother
    cases hother
    exact ⟨holder, waiting, rfl, hm⟩

theorem present (h : l.Queues queue) (hname : l.named.get? name = some address) :
    address < l.mutexes.length := by
  obtain ⟨holder, waiting, -, hm⟩ := h.shows_at hname
  exact (List.getElem?_eq_some_iff.1 hm).1

theorem mem_names_iff (h : l.Queues queue) : name ∈ l.named.names ↔ queue name ≠ [] := by
  have hshows := h.shows name
  cases hq : queue name with
  | nil =>
    rw [hq] at hshows
    simpa using Named.get?_eq_none_iff.1 hshows
  | cons holder waiting =>
    rw [hq] at hshows
    obtain ⟨address, hname, -⟩ := hshows
    have hmem : ¬name ∉ l.named.names := fun hnot => by
      rw [Named.get?_eq_none_iff.2 hnot] at hname
      exact nomatch hname
    simpa using hmem

theorem own_update (h : l.Queues queue) {turns : List Turn} (hturns : ∀ t ∈ turns, t.name = name)
    {other : String} {t : Turn} (ht : t ∈ Function.update queue name turns other) :
    t.name = other := by
  by_cases hother : other = name
  · subst hother
    rw [Function.update_self] at ht
    exact hturns t ht
  · rw [Function.update_of_ne hother] at ht
    exact h.own ht

/-- The mutex of one queue is replaced by that of another queue. -/
theorem change (h : l.Queues queue) {holder : Turn} {waiting : List Turn} {f : Mutex → Mutex}
    (hname : l.named.get? name = some address)
    (hf : (l.mutexes[address]?).map f = some (.ofQueue holder waiting))
    (hown : ∀ t ∈ holder :: waiting, t.name = name) :
    (l.change address f).Queues (Function.update queue name (holder :: waiting)) where
  names := h.names
  apart := h.apart
  own := h.own_update hown
  shows other := by
    by_cases hother : other = name
    · subst hother
      rw [Function.update_self]
      exact ⟨address, hname, (List.getElem?_modify_eq f address l.mutexes).trans hf⟩
    · rw [Function.update_of_ne hother]
      exact (h.shows other).frame rfl fun hplace =>
        List.getElem?_modify_ne f l.mutexes fun heq => hother (h.apart hplace (heq ▸ hname))
  idle {place m} hm := by
    by_cases hplace : address = place
    · exact .inr ⟨name, hplace ▸ hname⟩
    · exact h.idle ((List.getElem?_modify_ne f l.mutexes hplace).symm.trans hm)

/-- A name without a queue gets a mutex of its own. -/
theorem make (h : l.Queues queue) (turn : Turn) (hnone : l.named.get? turn.name = none) :
    Queues ⟨l.named.insert turn.name l.mutexes.length, l.mutexes ++ [.ofQueue turn []]⟩
      (Function.update queue turn.name [turn]) where
  names := Named.nodup_names_insert h.names _ _
  apart {one other place} hone hother := by
    have hfresh : ∀ {which}, which ≠ turn.name → (l.named.insert turn.name l.mutexes.length).get? which =
        some place → place < l.mutexes.length := by
      intro which hwhich hget
      rw [Named.get?_insert_of_ne _ _ hwhich] at hget
      exact h.present hget
    have hself : (l.named.insert turn.name l.mutexes.length).get? turn.name = some place →
        place = l.mutexes.length := fun hget => by
      rw [Named.get?_insert_self] at hget
      exact (Option.some.inj hget).symm
    by_cases h1 : one = turn.name <;> by_cases h2 : other = turn.name
    · rw [h1, h2]
    · exact absurd (hself (h1 ▸ hone)) (hfresh h2 hother).ne
    · exact absurd (hself (h2 ▸ hother)) (hfresh h1 hone).ne
    · rw [Named.get?_insert_of_ne _ _ h1] at hone
      rw [Named.get?_insert_of_ne _ _ h2] at hother
      exact h.apart hone hother
  own := h.own_update (List.forall_mem_singleton.2 rfl)
  shows other := by
    by_cases hother : other = turn.name
    · subst hother
      rw [Function.update_self]
      exact ⟨_, Named.get?_insert_self _ _ _, List.getElem?_concat_length⟩
    · rw [Function.update_of_ne hother]
      exact (h.shows other).frame (Named.get?_insert_of_ne _ _ hother) fun hplace =>
        List.getElem?_append_left (h.present hplace)
  idle {place m} hm := by
    by_cases hplace : place < l.mutexes.length
    · rw [List.getElem?_append_left hplace] at hm
      refine (h.idle hm).imp_right ?_
      rintro ⟨other, hother⟩
      have hne : other ≠ turn.name := by
        rintro rfl
        rw [hnone] at hother
        exact nomatch hother
      exact ⟨other, (Named.get?_insert_of_ne _ _ hne).trans hother⟩
    · have hlast : place < l.mutexes.length + 1 := by
        simpa using (List.getElem?_eq_some_iff.1 hm).1
      have heq : place = l.mutexes.length := by omega
      exact .inr ⟨turn.name, heq ▸ Named.get?_insert_self _ _ _⟩

/-- A queue ends and its mutex, which is free, is struck. -/
theorem strike (h : l.Queues queue) (hname : l.named.get? name = some address)
    {f : Mutex → Mutex} (hf : ∀ m ∈ l.mutexes[address]?, (f m).isFree = true) :
    Queues { l.change address f with named := l.named.erase name }
      (Function.update queue name []) where
  names := Named.nodup_names_erase h.names name
  apart {one other place} hone hother := by
    have hne : ∀ {which}, (l.named.erase name).get? which = some place → which ≠ name := by
      rintro _ hget rfl
      rw [Named.get?_erase_self h.names] at hget
      exact nomatch hget
    have h1 := hne hone
    have h2 := hne hother
    rw [Named.get?_erase_of_ne _ h1] at hone
    rw [Named.get?_erase_of_ne _ h2] at hother
    exact h.apart hone hother
  own := h.own_update (List.forall_mem_nil _)
  shows other := by
    by_cases hother : other = name
    · subst hother
      rw [Function.update_self]
      exact Named.get?_erase_self h.names other
    · rw [Function.update_of_ne hother]
      exact (h.shows other).frame (Named.get?_erase_of_ne _ hother) fun hplace =>
        List.getElem?_modify_ne f l.mutexes fun heq => hother (h.apart hplace (heq ▸ hname))
  idle {place m} hm := by
    by_cases hplace : address = place
    · subst hplace
      rw [Locks.change, List.getElem?_modify_eq] at hm
      obtain ⟨old, hold, rfl⟩ := Option.map_eq_some_iff.1 hm
      exact .inl (hf old hold)
    · rw [Locks.change, List.getElem?_modify_ne f l.mutexes hplace] at hm
      refine (h.idle hm).imp_right ?_
      rintro ⟨other, hother⟩
      have hne : other ≠ name := by
        rintro rfl
        rw [hname] at hother
        exact hplace (Option.some.inj hother)
      exact ⟨other, (Named.get?_erase_of_ne _ hne).trans hother⟩

/-- Whoever asks enters the queue, and is granted the lock if nobody stands before them. -/
theorem ask (h : l.Queues queue) (turn : Turn) :
    (l.ask turn).1.Queues (Function.update queue turn.name (queue turn.name ++ [turn])) ∧
      (l.ask turn).2 = if queue turn.name = [] then [turn.id] else [] := by
  have hshows := h.shows turn.name
  cases hq : queue turn.name with
  | nil =>
    rw [hq] at hshows
    have hnone : l.named.get? turn.name = none := hshows
    have hask : l.ask turn = (⟨l.named.insert turn.name l.mutexes.length,
        l.mutexes ++ [.ofQueue turn []]⟩, [turn.id]) := by
      simp [Locks.ask, find, hnone, Locks.change, List.modify_eq_set_getElem?]
    rw [hask]
    exact ⟨h.make turn hnone, rfl⟩
  | cons holder waiting =>
    rw [hq] at hshows
    obtain ⟨address, hname, hm⟩ := hshows
    have hask : l.ask turn = (l.change address fun m => m.refer.lock turn, []) := by
      simp [Locks.ask, find, hname, hm]
    rw [hask, List.cons_append]
    refine ⟨h.change hname ?_ ?_, rfl⟩
    · rw [hm, Option.map_some, Mutex.refer_lock_ofQueue]
    · rintro t (_ | ⟨_, ht⟩)
      · exact h.own (hq ▸ List.mem_cons_self)
      · rcases List.mem_append.1 ht with ht | ht
        · exact h.own (hq ▸ List.mem_cons_of_mem _ ht)
        · rw [List.mem_singleton.1 ht]

/-- Whoever stands first in a queue leaves it. The mutex stays while someone waits for it: its
references are then two at least. -/
theorem drop (h : l.Queues queue) {holder : Turn} {waiting : List Turn}
    (hname : l.named.get? holder.name = some address)
    (hq : queue holder.name = holder :: waiting) :
    (l.drop address holder).Queues (Function.update queue holder.name waiting) ∧
      (waiting ≠ [] → (l.drop address holder).named.get? holder.name = some address) := by
  obtain ⟨_, _, hq', hm⟩ := h.shows_at hname
  rw [hq] at hq'
  cases hq'
  have hunlock : (l.change address .unlock).mutexes[address]? =
      some (Mutex.ofQueue holder waiting).unlock := by
    rw [Locks.change, List.getElem?_modify_eq, hm]
    rfl
  cases waiting with
  | nil =>
    have hdrop : l.drop address holder = { l.change address fun m => m.unlock.forget with
        named := l.named.erase holder.name } := by
      have hrefs : ((l.change address .unlock).mutexes[address]?).any (·.references = 1) = true := by
        rw [hunlock, Mutex.unlock_ofQueue_nil]
        rfl
      have hget : (l.change address .unlock).named.get? holder.name = some address := hname
      rw [Locks.drop, prune, hget]
      simp only [hrefs, if_true]
      simp only [Locks.change, List.modify_modify_eq]
      rfl
    rw [hdrop]
    refine ⟨h.strike hname ?_, fun hne => absurd rfl hne⟩
    rintro m hmem
    rw [hm, Option.mem_some_iff] at hmem
    rw [← hmem]
    rfl
  | cons next rest =>
    have hdrop : l.drop address holder = l.change address .unlock := by
      have hrefs : ((l.change address .unlock).mutexes[address]?).any (·.references = 1) = false := by
        rw [hunlock, Mutex.unlock_ofQueue_cons, Option.any_some, Mutex.ofQueue]
        simp
      have hget : (l.change address .unlock).named.get? holder.name = some address := hname
      rw [Locks.drop, prune, hget]
      simp only [hrefs]
      rfl
    rw [hdrop]
    refine ⟨h.change hname ?_ ?_, fun _ => hname⟩
    · rw [hm, Option.map_some, Mutex.unlock_ofQueue_cons]
    · intro t ht
      exact h.own (hq ▸ List.mem_cons_of_mem _ ht)

/-- The mutex is passed on until it reaches someone who has not let go of it. -/
theorem passOn (h : l.Queues queue) {holder : Turn} {waiting : List Turn}
    (hname : l.named.get? holder.name = some address)
    (hq : queue holder.name = holder :: waiting) :
    (l.passOn address holder waiting).1.Queues
        (Function.update queue holder.name (Turn.unserved waiting)) ∧
      (l.passOn address holder waiting).2 = (Turn.served waiting).map Turn.id := by
  induction waiting generalizing l queue holder with
  | nil => exact ⟨(h.drop hname hq).1, rfl⟩
  | cons next rest ih =>
    obtain ⟨hleft, hstays⟩ := h.drop hname hq
    have hnext : next.name = holder.name := h.own (hq ▸ List.mem_cons_of_mem _ List.mem_cons_self)
    cases hreleased : next.released with
    | false =>
      simp only [Locks.passOn, hreleased, Turn.served, Turn.unserved]
      exact ⟨by simpa [hreleased] using hleft, by simp [upTo, hreleased]⟩
    | true =>
      have hqueue : Function.update queue holder.name (next :: rest) next.name = next :: rest := by
        rw [hnext, Function.update_self]
      obtain ⟨hrest, hgranted⟩ := ih hleft (hnext ▸ hstays (List.cons_ne_nil _ _)) hqueue
      rw [hnext, Function.update_idem] at hrest
      simp only [Locks.passOn, hreleased, if_true, hgranted]
      exact ⟨by simpa [Turn.unserved, hreleased] using hrest,
        by simp [Turn.served, upTo, hreleased]⟩

theorem vacate (h : l.Queues queue) {holder : Turn} {waiting : List Turn}
    (hname : l.named.get? name = some address) (hq : queue name = holder :: waiting) :
    (l.vacate address).1.Queues (Function.update queue name (Turn.unserved waiting)) ∧
      (l.vacate address).2 = (Turn.served waiting).map Turn.id := by
  obtain ⟨_, _, hq', hm⟩ := h.shows_at hname
  rw [hq] at hq'
  cases hq'
  have hown : holder.name = name := h.own (hq ▸ List.mem_cons_self)
  subst hown
  have hvacate : l.vacate address = l.passOn address holder waiting := by
    rw [Locks.vacate, hm]
    rfl
  rw [hvacate]
  exact h.passOn hname hq

/-- Whoever holds a mutex stands first in the queue of its name. -/
theorem first_of_heldBy (h : l.Queues queue) {id : String} (hheld : l.heldBy id = some address) :
    ∃ name holder waiting, l.named.get? name = some address ∧
      queue name = holder :: waiting ∧ holder.id = id := by
  obtain ⟨hlt, hid, -⟩ := List.findIdx?_eq_some_iff_getElem.1 hheld
  have hm := List.getElem?_eq_getElem hlt
  rcases h.idle hm with hfree | ⟨name, hname⟩
  · rw [Mutex.isHeldBy_of_isFree hfree] at hid
    exact nomatch hid
  · obtain ⟨holder, waiting, hq, hm'⟩ := h.shows_at hname
    rw [hm] at hm'
    rw [Option.some.inj hm', Mutex.isHeldBy_ofQueue] at hid
    exact ⟨name, holder, waiting, hname, hq, hid⟩

theorem ne_of_heldBy_none (h : l.Queues queue) {id : String} (hheld : l.heldBy id = none)
    {holder : Turn} {waiting : List Turn} (hq : queue name = holder :: waiting) : holder.id ≠ id := by
  intro hid
  have hshows := h.shows name
  rw [hq] at hshows
  obtain ⟨address, -, hm⟩ := hshows
  have hnot := List.findIdx?_eq_none_iff.1 hheld _ (List.mem_of_getElem? hm)
  rw [(Mutex.isHeldBy_ofQueue holder waiting).2 hid] at hnot
  exact nomatch hnot

/-- Those who hold a mutex keep it, and those who wait keep their place. -/
theorem giveUp (h : l.Queues queue) {id : String} (hheld : l.heldBy id = none) :
    (l.giveUp id).Queues fun name => (queue name).map (·.mark id) where
  names := h.names
  apart := h.apart
  own {name t} ht := by
    obtain ⟨turn, hturn, rfl⟩ := List.mem_map.1 ht
    rw [Turn.mark_name]
    exact h.own hturn
  shows name := by
    have hshows := h.shows name
    cases hq : queue name with
    | nil => rwa [hq] at hshows
    | cons holder waiting =>
      rw [hq] at hshows
      obtain ⟨address, hname, hm⟩ := hshows
      rw [List.map_cons, Turn.mark_of_ne (h.ne_of_heldBy_none hheld hq)]
      refine ⟨address, hname, ?_⟩
      rw [Locks.giveUp, List.getElem?_map, hm, Option.map_some, Mutex.giveUp_ofQueue]
  idle {address m} hm := by
    rw [Locks.giveUp, List.getElem?_map] at hm
    obtain ⟨old, hold, rfl⟩ := Option.map_eq_some_iff.1 hm
    exact h.idle (m := old) hold

/-- Whoever stands first in a queue leaves it, and so does everyone served after; whoever does not keeps
their place and leaves it when served. -/
theorem release (h : l.Queues queue) (id : String) :
    (∃ name holder waiting, queue name = holder :: waiting ∧ holder.id = id ∧
        (l.release id).1.Queues (Function.update queue name (Turn.unserved waiting)) ∧
        (l.release id).2 = (Turn.served waiting).map Turn.id) ∨
      ((∀ name holder waiting, queue name = holder :: waiting → holder.id ≠ id) ∧
        (l.release id).1.Queues (fun name => (queue name).map (·.mark id)) ∧
        (l.release id).2 = []) := by
  cases hheld : l.heldBy id with
  | some address =>
    obtain ⟨name, holder, waiting, hname, hq, hid⟩ := h.first_of_heldBy hheld
    have hrelease : l.release id = l.vacate address := by rw [Locks.release, hheld]
    rw [hrelease]
    exact .inl ⟨name, holder, waiting, hq, hid, h.vacate hname hq⟩
  | none =>
    have hrelease : l.release id = (l.giveUp id, []) := by rw [Locks.release, hheld]
    rw [hrelease]
    exact .inr ⟨fun _ _ _ hq => h.ne_of_heldBy_none hheld hq, h.giveUp hheld, rfl⟩

/-- Whoever has no turn yet gets one behind all who asked before. -/
theorem acquire (h : l.Queues queue) {id : String} (hnew : ∀ name, ∀ t ∈ queue name, t.id ≠ id)
    (table key : String) :
    (l.acquire id table key).1.Queues (Function.update queue (Locks.name table key)
        (queue (Locks.name table key) ++ [⟨id, Locks.name table key, false⟩])) ∧
      (l.acquire id table key).2 = if queue (Locks.name table key) = [] then [id] else [] := by
  have hheld : l.heldBy id = none := by
    rw [← Option.not_isSome_iff_eq_none, Option.isSome_iff_exists]
    rintro ⟨address, hsome⟩
    obtain ⟨name, holder, waiting, -, hq, hid⟩ := h.first_of_heldBy hsome
    exact hnew name holder (hq ▸ List.mem_cons_self) hid
  have hmarks : (fun name => (queue name).map (·.mark id)) = queue := by
    funext name
    exact Turn.map_mark_of_ne (hnew name)
  have hgiven : (l.giveUp id).Queues queue := hmarks ▸ h.giveUp hheld
  have hacquire : l.acquire id table key =
      (l.giveUp id).ask ⟨id, Locks.name table key, false⟩ := by
    rw [Locks.acquire, hheld]
  rw [hacquire]
  exact hgiven.ask ⟨id, Locks.name table key, false⟩

end Queues

end

end Locks

end RecordShelf

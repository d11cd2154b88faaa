import RecordShelf.Proofs.Shelf.LockQueues
import Mathlib.Data.Set.Card

/-!
# Locks are granted in turn

Tasks ask for the locks on records and let go of them, in any order. What the table of locks has
granted after some events is told from the events alone: of those who asked for a record, all up to
the first who has not let go, in the order in which they asked. So a lock has one holder, nobody is
overtaken, nobody waits for the lock on another record, and the table has as many locks as are held
or awaited.
-/

namespace RecordShelf

/-! ### Lists of which the front has let go -/

section
variable {α : Type} {p q : α → Bool} {a : α} {as : List α}

theorem upTo_append_singleton (h : p a = false) :
    upTo p (as ++ [a]) = upTo p as ++ if as.dropWhile p = [] then [a] else [] := by
  induction as with
  | nil => simp [upTo, h]
  | cons b as ih => cases hb : p b <;> simp [upTo, hb, ih]

theorem dropWhile_append_singleton (h : p a = false) :
    (as ++ [a]).dropWhile p = as.dropWhile p ++ [a] := by
  induction as with
  | nil => simp [h]
  | cons b as ih => cases hb : p b <;> simp [hb, ih]

theorem upTo_isPrefix (p : α → Bool) (as : List α) : upTo p as <+: as := by
  induction as with
  | nil => exact List.nil_prefix
  | cons b as ih =>
    rw [upTo]
    split_ifs
    · exact (List.prefix_cons_inj b).2 ih
    · exact (List.prefix_cons_inj b).2 List.nil_prefix

theorem mem_upTo_iff {before after : List α} (h : (before ++ a :: after).Nodup) :
    a ∈ upTo p (before ++ a :: after) ↔ ∀ b ∈ before, p b = true := by
  induction before with
  | nil => cases hp : p a <;> simp [upTo, hp]
  | cons b before ih =>
    rw [List.cons_append, List.nodup_cons] at h
    have hne : a ≠ b := by
      rintro rfl
      exact h.1 (List.mem_append_right _ List.mem_cons_self)
    cases hp : p b with
    | true => simp [upTo, hp, hne, ih h.2]
    | false => simp [upTo, hp, hne]

theorem upTo_eq_self (h : ∀ b ∈ as, p b = true) : upTo p as = as := by
  induction as with
  | nil => rfl
  | cons b as ih =>
    rw [upTo, if_pos (h b List.mem_cons_self), ih fun c hc => h c (List.mem_cons_of_mem _ hc)]

/-- Who has not let go is reached only as the first of those who are left. -/
theorem first_of_mem_upTo (h : a ∈ upTo p as) (ha : p a = false) :
    ∃ rest, as.dropWhile p = a :: rest := by
  induction as with
  | nil => exact absurd h List.not_mem_nil
  | cons b as ih =>
    cases hb : p b with
    | true =>
      rw [upTo, if_pos hb, List.mem_cons] at h
      rw [List.dropWhile_cons_of_pos hb]
      refine ih (h.resolve_left ?_)
      rintro rfl
      rw [hb] at ha
      cases ha
    | false =>
      rw [upTo, hb, if_neg Bool.false_ne_true, List.mem_singleton] at h
      exact ⟨as, by rw [h, List.dropWhile_cons_of_neg (by simp [hb])]⟩

/-- Texts without a mark are read off what they begin up to the mark. -/
theorem eq_of_append_cons_eq {before after before' after' : List α} (h : a ∉ before) (h' : a ∉ before')
    (heq : before ++ a :: after = before' ++ a :: after') : before = before' ∧ after = after' := by
  induction before generalizing before' with
  | nil =>
    cases before' with
    | nil => exact ⟨rfl, (List.cons.inj heq).2⟩
    | cons b before' => exact absurd (List.cons.inj heq).1 (fun hb => h' (hb ▸ List.mem_cons_self))
  | cons b before ih =>
    cases before' with
    | nil => exact absurd (List.cons.inj heq).1 (fun hb => h (hb ▸ List.mem_cons_self))
    | cons b' before' =>
      rw [List.mem_cons, not_or] at h h'
      obtain ⟨rfl, htail⟩ := List.cons.inj heq
      obtain ⟨rfl, rfl⟩ := ih h.2 h'.2 htail
      exact ⟨rfl, rfl⟩

variable [DecidableEq α]

/-- Someone lets go who is not the first of those who are left. -/
theorem while_of_ne_first (hq : ∀ b ∈ as, q b = (p b || decide (b = a)))
    (hfirst : ∀ rest, as.dropWhile p ≠ a :: rest) :
    as.dropWhile q = as.dropWhile p ∧ upTo q as = upTo p as := by
  induction as with
  | nil => exact ⟨rfl, rfl⟩
  | cons b as ih =>
    have hb := hq b List.mem_cons_self
    have htail : ∀ c ∈ as, q c = (p c || decide (c = a)) := fun c hc => hq c (List.mem_cons_of_mem _ hc)
    cases hp : p b with
    | true =>
      rw [hp, Bool.true_or] at hb
      obtain ⟨hdrop, hreached⟩ := ih htail fun rest => by simpa [hp] using hfirst rest
      simp [upTo, hp, hb, hdrop, hreached]
    | false =>
      have hne : b ≠ a := by
        rintro rfl
        exact hfirst as (List.dropWhile_cons_of_neg (by simp [hp]))
      rw [hp, decide_eq_false hne, Bool.or_false] at hb
      simp [upTo, hp, hb]

/-- The first of those who are left lets go. -/
theorem while_of_first {rest : List α} (hnodup : as.Nodup)
    (hq : ∀ b ∈ as, q b = (p b || decide (b = a))) (hfirst : as.dropWhile p = a :: rest) :
    as.dropWhile q = rest.dropWhile p ∧ upTo q as = upTo p as ++ upTo p rest := by
  induction as with
  | nil => exact nomatch hfirst
  | cons b as ih =>
    rw [List.nodup_cons] at hnodup
    have hb := hq b List.mem_cons_self
    have htail : ∀ c ∈ as, q c = (p c || decide (c = a)) := fun c hc => hq c (List.mem_cons_of_mem _ hc)
    cases hp : p b with
    | true =>
      rw [List.dropWhile_cons_of_pos hp] at hfirst
      rw [hp, Bool.true_or] at hb
      obtain ⟨hdrop, hreached⟩ := ih hnodup.2 htail hfirst
      simp [upTo, hp, hb, hdrop, hreached]
    | false =>
      rw [List.dropWhile_cons_of_neg (by simp [hp]), List.cons.injEq] at hfirst
      obtain ⟨rfl, rfl⟩ := hfirst
      rw [decide_eq_true rfl, Bool.or_true] at hb
      obtain ⟨hdrop, hreached⟩ := while_of_ne_first htail fun rest hrest =>
        hnodup.1 (List.dropWhile_sublist p |>.subset (hrest ▸ List.mem_cons_self))
      simp [upTo, hp, hb, hdrop, hreached]

end

theorem Locks.name_injective {table other key key' : String} (htable : '/' ∉ table.toList)
    (hother : '/' ∉ other.toList) (h : Locks.name table key = Locks.name other key') :
    table = other ∧ key = key' := by
  have hlist := congrArg String.toList h
  simp only [Locks.name, String.toList_append, List.append_assoc] at hlist
  obtain ⟨h1, h2⟩ := eq_of_append_cons_eq htable hother hlist
  exact ⟨String.toList_injective h1, String.toList_injective h2⟩

/-! ### Events -/

/-- A task asks for the lock on a record, or lets go of the lock that it asked for. -/
inductive LockEvent
  | acquire (id table key : String)
  | release (id : String)
  deriving DecidableEq, Repr

namespace LockEvent

/-- The locks after an event, and those who were granted one by it. -/
def apply (l : Locks) : LockEvent → Locks × List String
  | acquire id table key => l.acquire id table key
  | release id => l.release id

/-- The locks after some events, and all who were granted one, in order. -/
def run (events : List LockEvent) : Locks × List String :=
  events.foldl (fun s event => ((event.apply s.1).1, s.2 ++ (event.apply s.1).2)) (.empty, [])

/-- The task that asks, and the table and key of the record. -/
def claim? : LockEvent → Option (String × String × String)
  | acquire id table key => some (id, table, key)
  | release _ => none

def claims (events : List LockEvent) : Named (String × String) := events.filterMap claim?

/-- The tasks that asked for the lock on a record, in order. -/
def askers (events : List LockEvent) (table key : String) : List String :=
  Named.names ((claims events).filter fun c => c.2 = (table, key))

/-- Whether a task has let go since it asked. -/
def letGo : List LockEvent → String → Bool
  | [], _ => false
  | acquire id _ _ :: events, task => if id = task then events.contains (release task) else letGo events task
  | release _ :: events, task => letGo events task

/-- A task holds the lock on a record: it was granted the lock and has not let go of it. -/
def Holds (events : List LockEvent) (task table key : String) : Prop :=
  task ∈ askers events table key ∧ task ∈ (run events).2 ∧ letGo events task = false

/-- A task waits for the lock on a record. -/
def Waits (events : List LockEvent) (task table key : String) : Prop :=
  task ∈ askers events table key ∧ task ∉ (run events).2

variable {events : List LockEvent} {task : String}

theorem run_append_singleton (events : List LockEvent) (event : LockEvent) :
    run (events ++ [event]) =
      ((event.apply (run events).1).1, (run events).2 ++ (event.apply (run events).1).2) := by
  simp [run]

theorem claims_append (events more : List LockEvent) :
    claims (events ++ more) = claims events ++ claims more :=
  List.filterMap_append

theorem letGo_of_unasked (h : task ∉ (claims events).names) : letGo events task = false := by
  induction events with
  | nil => rfl
  | cons event events ih =>
    cases event with
    | acquire id table key =>
      have hnames : (claims (acquire id table key :: events)).names = id :: (claims events).names := rfl
      rw [hnames, List.mem_cons, not_or] at h
      rw [letGo, if_neg (Ne.symm h.1), ih h.2]
    | release id => exact ih h

theorem letGo_acquire (id table key : String) :
    letGo (events ++ [acquire id table key]) task = letGo events task := by
  induction events with
  | nil => simp [letGo]
  | cons event events ih =>
    cases event with
    | acquire other table key =>
      by_cases hother : other = task
      · simp [letGo, hother]
      · simp [letGo, hother, ih]
    | release other => exact ih

theorem letGo_release (h : task ∈ (claims events).names) (id : String) :
    letGo (events ++ [release id]) task = (letGo events task || decide (task = id)) := by
  induction events with
  | nil => exact nomatch h
  | cons event events ih =>
    cases event with
    | acquire other table key =>
      have hnames : (claims (acquire other table key :: events)).names =
        other :: (claims events).names := rfl
      rw [hnames, List.mem_cons] at h
      by_cases hother : other = task
      · simp [letGo, hother, List.contains_eq_mem, Bool.decide_or]
      · simp [letGo, hother, ih (h.resolve_left (Ne.symm hother))]
    | release other => exact ih h

/-! ### What the table keeps -/

/-- Those who asked for a lock by its name. -/
def askersOf (events : List LockEvent) (name : String) : List String :=
  Named.names ((claims events).filter fun c => Locks.name c.2.1 c.2.2 = name)

/-- The turns that are left: of those who asked for the lock, all from the first on who has not let go. -/
def turns (events : List LockEvent) (name : String) : List Turn :=
  ((askersOf events name).dropWhile (letGo events)).map fun task => ⟨task, name, letGo events task⟩

/-- The table has the turns that are left, and has granted those that were reached. -/
structure Served (events : List LockEvent) (s : Locks × List String) : Prop where
  queues : s.1.Queues (turns events)
  granted : ∀ name, s.2.filter (· ∈ askersOf events name) = upTo (letGo events) (askersOf events name)
  asked : ∀ task ∈ s.2, task ∈ (claims events).names

theorem askersOf_append (events more : List LockEvent) (name : String) :
    askersOf (events ++ more) name = askersOf events name ++ askersOf more name := by
  simp [askersOf, claims_append, Named.names]

theorem askersOf_sublist (events : List LockEvent) (name : String) :
    (askersOf events name).Sublist (claims events).names :=
  List.filter_sublist.map _

theorem askersOf_acquire (id table key name : String) :
    askersOf [acquire id table key] name = if Locks.name table key = name then [id] else [] := by
  by_cases h : Locks.name table key = name <;> simp [askersOf, claims, claim?, Named.names, h]

theorem id_of_mem_turns {name : String} {t : Turn} (h : t ∈ turns events name) :
    t.id ∈ askersOf events name := by
  obtain ⟨task, htask, rfl⟩ := List.mem_map.1 h
  exact (List.dropWhile_sublist _).subset htask

theorem id_ne_of_mem_turns {id name : String} (h : id ∉ askersOf events name) :
    ∀ t ∈ turns events name, t.id ≠ id := by
  rintro t ht rfl
  exact h (id_of_mem_turns ht)

theorem name_eq_of_mem_askersOf (h : (claims events).names.Nodup) {name other : String}
    (hname : task ∈ askersOf events name) (hother : task ∈ askersOf events other) : name = other := by
  obtain ⟨⟨_, place⟩, hplace, rfl⟩ := List.mem_map.1 hname
  obtain ⟨⟨_, place'⟩, hplace', rfl⟩ := List.mem_map.1 hother
  rw [List.mem_filter, decide_eq_true_eq] at hplace hplace'
  have hget := Named.get?_of_mem h hplace.1
  rw [Named.get?_of_mem h hplace'.1] at hget
  cases hget
  exact hplace.2.symm.trans hplace'.2

/-! #### A task asks -/

theorem turns_acquire {id : String} (hnew : id ∉ (claims events).names) (table key : String) :
    turns (events ++ [acquire id table key]) =
      Function.update (turns events) (Locks.name table key)
        (turns events (Locks.name table key) ++ [⟨id, Locks.name table key, false⟩]) := by
  have hletGo : letGo (events ++ [acquire id table key]) = letGo events :=
    funext fun _ => letGo_acquire id table key
  have hid : letGo events id = false := letGo_of_unasked hnew
  funext name
  rw [turns, hletGo, askersOf_append, askersOf_acquire]
  by_cases hname : Locks.name table key = name
  · subst hname
    rw [if_pos rfl, dropWhile_append_singleton hid, List.map_append, Function.update_self,
      List.map_singleton, hid]
    rfl
  · rw [if_neg hname, List.append_nil, Function.update_of_ne (Ne.symm hname)]
    rfl

theorem Served.acquire {l : Locks} {granted : List String} (h : Served events (l, granted))
    {id : String} (hnew : id ∉ (claims events).names) (table key : String) :
    Served (events ++ [acquire id table key])
      ((l.acquire id table key).1, granted ++ (l.acquire id table key).2) := by
  have hnot : ∀ name, id ∉ askersOf events name :=
    fun name hmem => hnew ((askersOf_sublist events name).subset hmem)
  obtain ⟨hqueues, hanswer⟩ :=
    h.queues.acquire (fun name => id_ne_of_mem_turns (hnot name)) table key
  rw [← turns_acquire hnew] at hqueues
  simp only [turns, List.map_eq_nil_iff] at hanswer
  have hletGo : letGo (events ++ [.acquire id table key]) = letGo events :=
    funext fun _ => letGo_acquire id table key
  have hid : letGo events id = false := letGo_of_unasked hnew
  refine ⟨hqueues, fun name => ?_, fun task htask => ?_⟩
  · have hold : granted.filter (· ∈ askersOf (events ++ [.acquire id table key]) name) =
        granted.filter (· ∈ askersOf events name) := by
      refine List.filter_congr fun task htask => ?_
      have hne : task ≠ id := fun heq => hnew (heq ▸ h.asked task htask)
      rw [askersOf_append, askersOf_acquire]
      split_ifs <;> simp [hne]
    rw [List.filter_append, hold, h.granted, hletGo, hanswer, askersOf_append, askersOf_acquire]
    by_cases hname : Locks.name table key = name
    · subst hname
      rw [if_pos rfl, upTo_append_singleton hid]
      split_ifs <;> simp
    · rw [if_neg hname, List.append_nil]
      split_ifs <;> simp [hnot name]
  · rw [claims_append, Named.names, List.map_append, List.mem_append]
    rcases List.mem_append.1 htask with hmem | hmem
    · exact .inl (h.asked task hmem)
    · rw [hanswer] at hmem
      split_ifs at hmem
      · exact .inr hmem
      · exact absurd hmem List.not_mem_nil

/-! #### A task lets go -/

section
variable (id : String)

theorem claims_release : claims (events ++ [release id]) = claims events := by
  rw [claims_append]
  exact List.append_nil _

theorem askersOf_release (name : String) :
    askersOf (events ++ [release id]) name = askersOf events name := by
  rw [askersOf, claims_release]
  rfl

theorem letGo_askersOf (name : String) : ∀ task ∈ askersOf events name,
    letGo (events ++ [release id]) task = (letGo events task || decide (task = id)) :=
  fun _ htask => letGo_release ((askersOf_sublist events name).subset htask) id

variable {id}

/-- Where a task is not first, its letting go is marked only. -/
theorem turns_release_of_ne {name : String}
    (hfirst : ∀ rest, (askersOf events name).dropWhile (letGo events) ≠ id :: rest) :
    turns (events ++ [release id]) name = (turns events name).map (·.mark id) := by
  obtain ⟨hdrop, -⟩ := while_of_ne_first (letGo_askersOf id name) hfirst
  rw [turns, turns, askersOf_release, hdrop, List.map_map]
  refine List.map_congr_left fun task htask => ?_
  rw [letGo_askersOf id name task ((List.dropWhile_sublist _).subset htask)]
  by_cases heq : task = id <;> simp [Turn.mark, heq]

theorem turns_release_of_first (hnodup : (claims events).names.Nodup) {name : String}
    {rest : List String} (hfirst : (askersOf events name).dropWhile (letGo events) = id :: rest) :
    turns (events ++ [release id]) = Function.update (turns events) name
      (Turn.unserved (rest.map fun task => ⟨task, name, letGo events task⟩)) := by
  have hmem : id ∈ askersOf events name :=
    (List.dropWhile_sublist _).subset (hfirst ▸ List.mem_cons_self)
  funext other
  by_cases hother : other = name
  · subst hother
    have hsub : (id :: rest).Sublist (askersOf events other) :=
      hfirst ▸ List.dropWhile_sublist _
    have hnot : id ∉ rest :=
      (List.nodup_cons.1 (hsub.nodup ((askersOf_sublist events other).nodup hnodup))).1
    obtain ⟨hdrop, -⟩ := while_of_first ((askersOf_sublist events other).nodup hnodup)
      (letGo_askersOf id other) hfirst
    rw [turns, askersOf_release, hdrop, Function.update_self, Turn.unserved, List.dropWhile_map]
    refine List.map_congr_left fun task htask => ?_
    have htask := (List.dropWhile_sublist _).subset htask
    have hne : task ≠ id := fun heq => hnot (heq ▸ htask)
    rw [letGo_askersOf id other task (hsub.subset (List.mem_cons_of_mem _ htask)),
      decide_eq_false hne, Bool.or_false]
  · have hnot : id ∉ askersOf events other :=
      fun h => hother (name_eq_of_mem_askersOf hnodup h hmem)
    rw [Function.update_of_ne hother, turns_release_of_ne fun rest hrest =>
      hnot ((List.dropWhile_sublist _).subset (hrest ▸ List.mem_cons_self))]
    exact Turn.map_mark_of_ne (id_ne_of_mem_turns hnot)

/-- When the first in line lets go, those behind it are reached up to the next who has not let go,
and no one in any other line. -/
theorem upTo_release_of_first (hnodup : (claims events).names.Nodup) {name : String}
    {rest : List String} (hfirst : (askersOf events name).dropWhile (letGo events) = id :: rest)
    (other : String) : upTo (letGo (events ++ [release id])) (askersOf events other) =
      upTo (letGo events) (askersOf events other) ++
        (upTo (letGo events) rest).filter (· ∈ askersOf events other) := by
  have hline : ∀ task ∈ id :: rest, task ∈ askersOf events name := fun task htask =>
    (List.dropWhile_sublist _).subset (hfirst ▸ htask)
  have hreached : ∀ task ∈ upTo (letGo events) rest, task ∈ askersOf events name :=
    fun task htask => hline task (List.mem_cons_of_mem _ ((upTo_isPrefix _ _).subset htask))
  by_cases hother : other = name
  · subst hother
    rw [(while_of_first ((askersOf_sublist events other).nodup hnodup) (letGo_askersOf id other)
      hfirst).2, List.filter_eq_self.2 (by simpa using hreached)]
  · have hnot : ∀ task ∈ askersOf events name, task ∉ askersOf events other :=
      fun task htask hmem => hother (name_eq_of_mem_askersOf hnodup hmem htask)
    have hid : id ∉ askersOf events other := hnot id (hline id List.mem_cons_self)
    rw [(while_of_ne_first (letGo_askersOf id other) fun rest hrest =>
        hid ((List.dropWhile_sublist _).subset (hrest ▸ List.mem_cons_self))).2,
      List.filter_eq_nil_iff.2 (by simpa using fun task htask => hnot task (hreached task htask)),
      List.append_nil]

theorem Served.release {l : Locks} {granted : List String} (h : Served events (l, granted))
    (hnodup : (claims events).names.Nodup) (id : String) :
    Served (events ++ [release id]) ((l.release id).1, granted ++ (l.release id).2) := by
  rcases h.queues.release id with ⟨name, holder, waiting, hq, hid, hqueues, hanswer⟩ |
    ⟨hfirst, hqueues, hanswer⟩
  · obtain ⟨first, rest, hdrop, rfl, rfl⟩ := List.map_eq_cons_iff.1 hq
    have hid : first = id := hid
    subst hid
    rw [Turn.served, upTo_map, List.map_map] at hanswer
    have hserved : (l.release first).2 = upTo (letGo events) rest :=
      hanswer.trans (List.map_id' _)
    refine ⟨turns_release_of_first hnodup hdrop ▸ hqueues, fun other => ?_, fun task htask => ?_⟩
    · simp only [askersOf_release, List.filter_append, hserved]
      rw [h.granted, upTo_release_of_first hnodup hdrop]
    · rw [claims_release]
      rcases List.mem_append.1 htask with hmem | hmem
      · exact h.asked task hmem
      · have hrest : task ∈ rest := (upTo_isPrefix _ _).subset (hserved ▸ hmem)
        exact (askersOf_sublist events name).subset
          ((List.dropWhile_sublist _).subset (hdrop ▸ List.mem_cons_of_mem _ hrest))
  · have hfirst : ∀ name rest, (askersOf events name).dropWhile (letGo events) ≠ id :: rest := by
      intro name rest hdrop
      exact hfirst name _ _ (by rw [turns, hdrop, List.map_cons]) rfl
    rw [hanswer, List.append_nil]
    refine ⟨?_, fun name => ?_, fun task htask => ?_⟩
    · have hturns : turns (events ++ [.release id]) = fun name => (turns events name).map (·.mark id) :=
        funext fun name => turns_release_of_ne (hfirst name)
      rw [hturns]
      exact hqueues
    · simp only [askersOf_release]
      rw [h.granted, (while_of_ne_first (letGo_askersOf id name) (hfirst name)).2]
    · rw [claims_release]
      exact h.asked task htask

end

/-- Each event keeps the table in step with what was asked and let go. -/
theorem served_run (h : (claims events).names.Nodup) : Served events (run events) := by
  induction events using List.reverseRecOn with
  | nil =>
    exact ⟨Locks.queues_empty, fun _ => rfl, fun _ htask => nomatch htask⟩
  | append_singleton events event ih =>
    have hnames : (claims (events ++ [event])).names =
        (claims events).names ++ (claims [event]).names := by
      rw [claims_append, Named.names, List.map_append]
      rfl
    rw [hnames] at h
    have ih := ih h.of_append_left
    rw [run_append_singleton]
    cases event with
    | acquire id table key =>
      refine ih.acquire (fun hmem => ?_) table key
      exact (List.disjoint_of_nodup_append h) hmem List.mem_cons_self
    | release id => exact ih.release h.of_append_left id

/-! ### Records -/

theorem askers_eq (htables : ∀ c ∈ claims events, '/' ∉ c.2.1.toList) {table : String}
    (htable : '/' ∉ table.toList) (key : String) :
    askers events table key = askersOf events (Locks.name table key) := by
  rw [askers, askersOf]
  refine congrArg Named.names (List.filter_congr fun c hc => decide_eq_decide.2 ⟨?_, ?_⟩)
  · intro heq
    rw [heq]
  · intro heq
    obtain ⟨h1, h2⟩ := Locks.name_injective (htables c hc) htable heq
    rw [← h1, ← h2]

theorem slash_not_mem_of_mem_askers (htables : ∀ c ∈ claims events, '/' ∉ c.2.1.toList)
    {table key : String} (h : task ∈ askers events table key) : '/' ∉ table.toList := by
  obtain ⟨c, hc, -⟩ := List.mem_map.1 h
  rw [List.mem_filter, decide_eq_true_eq] at hc
  have htable := htables c hc.1
  rwa [hc.2] at htable

theorem granted_askers (honce : (claims events).names.Nodup)
    (htables : ∀ c ∈ claims events, '/' ∉ c.2.1.toList) (table key : String) :
    (run events).2.filter (· ∈ askers events table key) =
      upTo (letGo events) (askers events table key) := by
  by_cases htable : '/' ∈ table.toList
  · have hnone : askers events table key = [] :=
      List.eq_nil_iff_forall_not_mem.2 fun task htask =>
        slash_not_mem_of_mem_askers htables htask htable
    rw [hnone]
    exact List.filter_eq_nil_iff.2 fun task _ => by simp
  · rw [askers_eq htables htable]
    exact (served_run honce).granted _

/-- A record is locked as long as someone who asked for it has not let go. -/
theorem held_or_awaited_iff (honce : (claims events).names.Nodup)
    (htables : ∀ c ∈ claims events, '/' ∉ c.2.1.toList) (table key : String) :
    (∃ task, Holds events task table key ∨ Waits events task table key) ↔
      ∃ task ∈ askers events table key, letGo events task = false := by
  constructor
  · rintro ⟨task, ⟨htask, -, hheld⟩ | ⟨htask, hnot⟩⟩
    · exact ⟨task, htask, hheld⟩
    · by_contra hall
      have hlet : ∀ other ∈ askers events table key, letGo events other = true := by
        intro other hother
        rw [← Bool.not_eq_false]
        exact fun heq => hall ⟨other, hother, heq⟩
      have hgranted := granted_askers honce htables table key
      rw [upTo_eq_self hlet] at hgranted
      rw [← hgranted, List.mem_filter] at htask
      exact hnot htask.1
  · rintro ⟨task, htask, hheld⟩
    refine ⟨task, ?_⟩
    by_cases hgranted : task ∈ (run events).2
    · exact .inl ⟨htask, hgranted, hheld⟩
    · exact .inr ⟨htask, hgranted⟩

theorem turns_eq_nil_iff {name : String} :
    turns events name = [] ↔ ∀ task ∈ askersOf events name, letGo events task = true := by
  rw [turns, List.map_eq_nil_iff, List.dropWhile_eq_nil_iff]

theorem mem_names_run_iff (honce : (claims events).names.Nodup) {name : String} :
    name ∈ (run events).1.named.names ↔ ∃ task ∈ askersOf events name, letGo events task = false := by
  rw [(served_run honce).queues.mem_names_iff, ne_eq, turns_eq_nil_iff]
  simp

theorem granted_at_once_iff (honce : (claims events).names.Nodup)
    (hnew : task ∉ (claims events).names) (table key : String) :
    task ∈ ((run events).1.acquire task table key).2 ↔
      ∀ other ∈ askersOf events (Locks.name table key), letGo events other = true := by
  have hnot : ∀ name, task ∉ askersOf events name :=
    fun name hmem => hnew ((askersOf_sublist events name).subset hmem)
  rw [← turns_eq_nil_iff, ((served_run honce).queues.acquire
    (fun name => id_ne_of_mem_turns (hnot name)) table key).2]
  split_ifs with hfree <;> simp [hfree]

theorem size_run (honce : (claims events).names.Nodup)
    (htables : ∀ c ∈ claims events, '/' ∉ c.2.1.toList) :
    ((run events).1.size : ℕ∞) = {record : String × String | ∃ task,
      Holds events task record.1 record.2 ∨ Waits events task record.1 record.2}.encard := by
  have hslash : ∀ record : String × String, (∃ task, Holds events task record.1 record.2 ∨
      Waits events task record.1 record.2) → '/' ∉ record.1.toList := by
    rintro record ⟨task, ⟨htask, -⟩ | ⟨htask, -⟩⟩
    · exact slash_not_mem_of_mem_askers htables htask
    · exact slash_not_mem_of_mem_askers htables htask
  have hinj : Set.InjOn (fun record : String × String => Locks.name record.1 record.2)
      {record | ∃ task, Holds events task record.1 record.2 ∨
        Waits events task record.1 record.2} := by
    intro one hone other hother heq
    obtain ⟨h1, h2⟩ := Locks.name_injective (hslash one hone) (hslash other hother) heq
    exact Prod.ext h1 h2
  have himage : (fun record : String × String => Locks.name record.1 record.2) ''
      {record | ∃ task, Holds events task record.1 record.2 ∨
        Waits events task record.1 record.2} = (run events).1.named.names.toFinset := by
    ext name
    rw [Finset.mem_coe, List.mem_toFinset, mem_names_run_iff honce]
    constructor
    · rintro ⟨record, hrecord, rfl⟩
      rw [← askers_eq htables (hslash record hrecord)]
      exact (held_or_awaited_iff honce htables _ _).1 hrecord
    · rintro ⟨task, htask, hheld⟩
      obtain ⟨⟨_, table, key⟩, hc, rfl⟩ := List.mem_map.1 htask
      rw [List.mem_filter, decide_eq_true_eq] at hc
      obtain ⟨hc, rfl⟩ := hc
      refine ⟨(table, key), (held_or_awaited_iff honce htables table key).2 ⟨_, ?_, hheld⟩, rfl⟩
      rw [askers_eq htables (htables _ hc)]
      exact htask
  rw [← hinj.encard_image, himage, Set.encard_coe_eq_coe_finsetCard,
    List.toFinset_card_of_nodup (served_run honce).queues.names, Named.names, List.length_map,
    Locks.size]

/-- After any events in which each task asks once, for records of tables without a slash: the lock on a
record has one holder at most; those who asked for it are granted it in the order in which they asked;
a task has been granted it exactly when all who asked for it before have let go, so at once if they have
let go by then; the table has as many locks as there are records held or awaited; and once every task
has let go it has none. -/
theorem locks_granted_in_turn (honce : (claims events).names.Nodup)
    (htables : ∀ c ∈ claims events, '/' ∉ c.2.1.toList) :
    (∀ table key task other,
      Holds events task table key → Holds events other table key → task = other) ∧
    (∀ table key,
      (run events).2.filter (· ∈ askers events table key) <+: askers events table key) ∧
    (∀ table key before task after, askers events table key = before ++ task :: after →
      (task ∈ (run events).2 ↔ ∀ other ∈ before, letGo events other = true)) ∧
    (∀ earlier task table key, events = earlier ++ [acquire task table key] →
      (task ∈ ((run earlier).1.acquire task table key).2 ↔
        ∀ other ∈ askers earlier table key, letGo earlier other = true)) ∧
    ((run events).1.size : ℕ∞) = {record : String × String | ∃ task,
      Holds events task record.1 record.2 ∨ Waits events task record.1 record.2}.encard ∧
    ((∀ task ∈ (claims events).names, letGo events task = true) → (run events).1.named = []) := by
  have hgranted := granted_askers honce htables
  have hmem : ∀ table key task, task ∈ askers events table key → task ∈ (run events).2 →
      task ∈ upTo (letGo events) (askers events table key) := by
    intro table key task htask hrun
    rw [← hgranted, List.mem_filter]
    exact ⟨hrun, decide_eq_true htask⟩
  refine ⟨?_, ?_, ?_, ?_, size_run honce htables, ?_⟩
  · rintro table key task other ⟨htask, hrun, hheld⟩ ⟨hother, hrun', hheld'⟩
    obtain ⟨rest, hfirst⟩ := first_of_mem_upTo (hmem table key task htask hrun) hheld
    obtain ⟨rest', hfirst'⟩ := first_of_mem_upTo (hmem table key other hother hrun') hheld'
    rw [hfirst] at hfirst'
    exact (List.cons.inj hfirst').1
  · intro table key
    rw [hgranted]
    exact upTo_isPrefix _ _
  · intro table key before task after heq
    have hnodup : (before ++ task :: after).Nodup :=
      heq ▸ (List.filter_sublist.map _).nodup honce
    rw [← mem_upTo_iff hnodup, ← heq, ← hgranted, List.mem_filter]
    have htask : task ∈ askers events table key := heq ▸ List.mem_append_right _ List.mem_cons_self
    simp [htask]
  · rintro earlier task table key rfl
    have hnames : (claims (earlier ++ [.acquire task table key])).names =
        (claims earlier).names ++ [task] := by
      rw [claims_append, Named.names, List.map_append]
      rfl
    rw [hnames] at honce
    have hnew : task ∉ (claims earlier).names := fun h =>
      List.disjoint_of_nodup_append honce h List.mem_cons_self
    rw [claims_append] at htables
    have htable : '/' ∉ table.toList :=
      htables (task, table, key) (List.mem_append_right _ List.mem_cons_self)
    rw [askers_eq (fun c hc => htables c (List.mem_append_left _ hc)) htable]
    exact granted_at_once_iff honce.of_append_left hnew table key
  · intro hall
    have hnames : (run events).1.named.names = [] := by
      refine List.eq_nil_iff_forall_not_mem.2 fun name hname => ?_
      obtain ⟨task, htask, hheld⟩ := (mem_names_run_iff honce).1 hname
      rw [hall task ((askersOf_sublist events name).subset htask)] at hheld
      cases hheld
    exact List.map_eq_nil_iff.1 hnames

theorem locks_granted_in_turn_three :
    let events := [acquire "a" "roles" "1", acquire "b" "roles" "1", acquire "c" "bans" "1",
      release "b", release "a"]
    (claims events).names.Nodup ∧ (∀ c ∈ claims events, '/' ∉ c.2.1.toList) ∧
      (run events).2 = ["a", "c", "b"] ∧ Holds events "c" "bans" "1" ∧
      (∀ task other, Holds events task "bans" "1" → Holds events other "bans" "1" → task = other) := by
  intro events
  have honce : (claims events).names.Nodup := by decide
  have htables : ∀ c ∈ claims events, '/' ∉ c.2.1.toList := by decide
  exact ⟨honce, htables, by decide, ⟨by decide, by decide, by decide⟩,
    (locks_granted_in_turn honce htables).1 "bans" "1"⟩

end LockEvent

end RecordShelf

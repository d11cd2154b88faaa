import RecordShelf.Proofs.Database.BatchLoads

/-!
# Batches of roles

In whatever order the loads of a batch go on, each user gets one role, and each role that the cache
does not have is loaded once. The role is the one that a lookup of this user alone would have given
at the start, unless the cache of records had a record of the user that was gone when it was looked
for: then it is the role that a lookup gives without this record. One user after another is one of
the orders.
-/

namespace RecordShelf

namespace Batch
open DatabaseM
variable {conference : Int64} {users : List Int64} {start : Database} {σ : Batch} {user : Int64}

/-! ## One user alone -/

theorem userRole_of_cached {value : Json} (h : cachedRole? start conference user = some value) :
    ((userRole conference user).run start).1 = .ok (value.toInt64?.getD 0) := by
  have hcached := run_cached? .userRoles (Invalidation.role conference user).key start
  have hfound : (start.caches.get start.clock .userRoles
      (Invalidation.role conference user).key).1 = some value := h
  rw [hfound] at hcached
  have hlookup : ((lookup .userRoles (Invalidation.role conference user).key
      (roleValue conference user)).run start).1 = .ok value := by
    rw [lookup, run_bind_of_ok hcached]
    rfl
  rw [userRole, run_map _ fun value : Json => value.toInt64?.getD 0, hlookup]
  rfl

/-- What a lookup gives that the cache has no answer for. -/
theorem userRole_of_missed (h : cachedRole? start conference user = none) :
    ((userRole conference user).run start).1 =
      ((CachedEntry.role conference user).value (match heldRecord? conference start user with
        | some r => .ok (some r)
        | none => (CachedEntry.role conference user).read start.shelf)).map
        fun value => value.toInt64?.getD 0 := by
  rw [userRole, run_map _ fun value : Json => value.toInt64?.getD 0, fst_run_lookup h,
    CachedEntry.run_roleValue]
  have hload : ∀ db : Database, ((CachedEntry.role conference user).load.run db).1 =
      (CachedEntry.role conference user).value ((CachedEntry.role conference user).fetch db).1 :=
    fun _ => rfl
  rw [hload, CachedEntry.fetch, heldRecord_role, heldRecord?]
  dsimp only
  cases (start.records.get start.clock (recordName conference user)).1 <;> rfl

/-- The database without the record that the cache of records has for a user. -/
def withoutRecord (conference : Int64) (db : Database) (user : Int64) : Database :=
  { db with records := (db.records.invalidate (recordName conference user)).2 }

theorem heldRecord?_withoutRecord (h : start.records.Distinct) :
    heldRecord? conference (withoutRecord conference start user) user = none := by
  have hgone : (withoutRecord conference start user).records.entries.get?
      (recordName conference user) = none := TimedCache.absent_invalidate h _
  rw [heldRecord?, TimedCache.get_of_absent hgone]

/-! ## What a user gets -/

/-- The cache of records had a record of the user at the start, but the role was taken from the
shelf. -/
def PushedOut (conference : Int64) (start : Database) (σ : Batch) (user : Int64) : Prop :=
  (∃ r, heldRecord? conference start user = some r) ∧
    ∃ t, (σ.phase user).taken? = some t ∧ t.recalled = false

/-- A user has a role when the cache had it or when what was loaded has been set. -/
theorem Consistent.role?_eq_some {n : Int64} (h : Consistent conference users start σ)
    (hn : σ.role? user = some n) :
    (∃ value, user ∈ users ∧ user ∉ σ.loads ∧ cachedRole? start conference user = some value ∧
      σ.phase user = .found value ∧ n = value.toInt64?.getD 0) ∨
    ∃ t value, user ∈ missing conference users start ∧ user ∈ σ.loads ∧
      Source conference users start user σ.db.clock t ∧
      σ.phase user = .stored t value .ready ∧
      (CachedEntry.role conference user).value t.source = .ok value ∧
      n = value.toInt64?.getD 0 := by
  have hstanding := h.standing user
  rw [role?] at hn
  generalize σ.phase user = phase at hn hstanding
  cases hstanding with
  | found mem cached unloaded =>
    exact .inl ⟨_, mem, unloaded, cached, rfl, (Option.some.inj hn).symm⟩
  | stored mem loaded source value_eq =>
    exact .inr ⟨_, _, mem, loaded, source, rfl, value_eq, (Option.some.inj hn).symm⟩
  | begun | missed | unrecalled | read | loaded => exact nomatch hn

/-- A user whose record was not pushed out gets the role that a lookup alone gives. -/
theorem Consistent.role_alone {n : Int64} (h : Consistent conference users start σ)
    (hn : σ.role? user = some n) (hpushed : ¬PushedOut conference start σ user) :
    ((userRole conference user).run start).1 = .ok n := by
  rcases h.role?_eq_some hn with ⟨value, -, -, hcached, -, rfl⟩ |
    ⟨t, value, hmissing, -, hsource, hphase, hvalue, rfl⟩
  · exact userRole_of_cached hcached
  · rw [userRole_of_missed (mem_missing.1 hmissing).2]
    cases hsource with
    | recalled held =>
      rw [held]
      exact congrArg (Except.map _) hvalue
    | read missed =>
      cases hheld : heldRecord? conference start user with
      | none => exact congrArg (Except.map _) hvalue
      | some r => exact absurd ⟨⟨r, hheld⟩, _, by rw [hphase]; rfl, rfl⟩ hpushed

/-- A user whose record was pushed out gets the role that a lookup gives without it. -/
theorem Consistent.role_without {n : Int64} (h : Consistent conference users start σ)
    (hstart : start.records.Distinct) (hn : σ.role? user = some n)
    (hpushed : PushedOut conference start σ user) :
    ((userRole conference user).run (withoutRecord conference start user)).1 = .ok n ∧
      (Crowded conference users start ∨ Aged conference start user σ.db.clock) := by
  obtain ⟨hheld, taken, htaken, hrecalled⟩ := hpushed
  rcases h.role?_eq_some hn with ⟨value, -, -, -, hphase, -⟩ |
    ⟨t, value, hmissing, -, hsource, hphase, hvalue, rfl⟩
  · rw [hphase] at htaken
    exact nomatch htaken
  · rw [hphase] at htaken
    obtain rfl := Option.some.inj htaken
    cases hsource with
    | recalled held => exact nomatch hrecalled
    | read missed =>
      refine ⟨?_, missed hheld⟩
      have hcached : cachedRole? (withoutRecord conference start user) conference user = none :=
        (mem_missing.1 hmissing).2
      rw [userRole_of_missed hcached, heldRecord?_withoutRecord hstart]
      exact congrArg (Except.map _) hvalue

/-! ## All users get a role -/

theorem left_look_le (σ : Batch) (conference : Int64) (user other : Int64) :
    ((σ.look conference user).phase other).left ≤
      (σ.phase other).left - if other = user then 1 else 0 := by
  rw [look]
  by_cases hother : other = user
  · subst hother
    dsimp only
    rw [Function.update_self, if_pos rfl]
    exact Encounter.left_lookup_next_le _ _ _
  · dsimp only
    rw [Function.update_of_ne hother, if_neg hother]
    exact Nat.le_refl _

theorem isBegun_eq_false {phase : LookupPhase} (h : phase.left ≤ 4) : phase.isBegun = false := by
  cases phase with
  | begun => exact absurd h (by decide)
  | _ => rfl

theorem left_step_le (σ : Batch) (conference : Int64) {user : Int64}
    (h : (σ.phase user).left ≤ 4) (turn : Turn) :
    ((σ.step conference turn).phase user).left ≤
      (σ.phase user).left - if turn = .load user then 1 else 0 := by
  cases turn with
  | wait ms => exact Nat.le_refl _
  | load other =>
    rw [step]
    by_cases hother : other = user
    · subst hother
      rw [isBegun_eq_false h, if_neg Bool.false_ne_true]
      simpa using left_look_le σ conference other other
    · have hturn : Turn.load other ≠ .load user := fun heq => hother (Turn.load.inj heq)
      rw [if_neg hturn]
      split_ifs
      · exact Nat.le_refl _
      · simpa [Ne.symm hother] using left_look_le σ conference other user

theorem left_foldl_le (conference : Int64) {user : Int64} (turns : List Turn)
    (h : (σ.phase user).left ≤ 4) : ((turns.foldl (step conference) σ).phase user).left ≤
      (σ.phase user).left - turns.count (.load user) := by
  induction turns generalizing σ with
  | nil => exact Nat.le_refl _
  | cons turn turns ih =>
    have hstep := left_step_le σ conference h turn
    have hrest := ih (σ := σ.step conference turn) (by omega)
    rw [List.foldl_cons, List.count_cons]
    by_cases hturn : turn = .load user
    · simp only [hturn, if_true, beq_self_eq_true] at hstep hrest ⊢
      omega
    · simp only [hturn, if_false, beq_iff_eq] at hstep ⊢
      omega

/-- Four turns bring the lookup of each user to its end. -/
theorem done_of_turns {turns : List Turn} (hstart : start.records.Distinct) (hmem : user ∈ users)
    (hturns : 4 ≤ turns.count (.load user)) :
    ∃ n, (run conference users start turns).role? user = some n := by
  have hasked : ((asked conference users start).phase user).left ≤ 4 := by
    rw [(asked_eq conference users start).2.2, if_pos hmem]
    cases cachedRole? start conference user with
    | some value => exact Nat.zero_le _
    | none => exact Nat.le_refl 4
  have hleft := left_foldl_le conference turns hasked
  have hzero : ((run conference users start turns).phase user).left = 0 := by
    rw [run]
    omega
  have hstanding := (consistent_run conference users hstart turns).standing user
  rw [role?]
  generalize (run conference users start turns).phase user = phase at hzero hstanding
  cases hstanding with
  | found => exact ⟨_, rfl⟩
  | stored => exact ⟨_, rfl⟩
  | begun | missed | unrecalled | read | loaded => exact nomatch hzero

/-! ## One user after another -/

/-- Each user's lookup is brought to its end before the next one's goes on. -/
def inTurn (users : List Int64) : List Turn := users.flatMap fun user => .replicate 4 (.load user)

/-- Asking the cache for all users is the beginning of a batch. -/
theorem run_cachedAll_eq (conference : Int64) (hdistinct : users.Nodup)
    (hbegun : ∀ user ∈ users, σ.phase user = .begun) :
    (cachedAll .userRoles (fun user => (Invalidation.role conference user).key) users).run σ.db =
      (.ok (users.map fun user => (user, cachedRole? σ.db conference user)),
        (users.foldl (look conference) σ).db) := by
  induction users generalizing σ with
  | nil => rfl
  | cons first users ih =>
    obtain ⟨hnew, hdistinct⟩ := List.nodup_cons.1 hdistinct
    have hne : ∀ user ∈ users, user ≠ first := fun user hmem heq => hnew (heq ▸ hmem)
    have hlook := look_begun conference (hbegun first List.mem_cons_self)
    have hcached := run_cached? .userRoles (Invalidation.role conference first).key σ.db
    have hdb : (σ.look conference first).db = { σ.db with
        caches := (σ.db.caches.get σ.db.clock .userRoles
          (Invalidation.role conference first).key).2 } := by
      rw [hlook]
    have hrest := ih hdistinct (σ := σ.look conference first) fun user hmem => by
      rw [hlook]
      exact (Function.update_of_ne (hne user hmem) _ _).trans
        (hbegun user (List.mem_cons_of_mem _ hmem))
    have hsame : users.map (fun user => (user, cachedRole? (σ.look conference first).db conference
        user)) = users.map fun user => (user, cachedRole? σ.db conference user) := by
      refine List.map_congr_left fun user hmem => ?_
      rw [hdb, cachedRole?_get _ (hne user hmem)]
    rw [hsame, hdb] at hrest
    rw [cachedAll, run_bind_of_ok hcached, run_bind_of_ok hrest]
    rfl

theorem step_updated {phases : Int64 → LookupPhase} {phase phase' : LookupPhase} {db db' : Database}
    {loads : List Int64} (hbegun : phase.isBegun = false) (hmissed : phase.isMissed = false)
    (h : phase.next (.role conference user) .ready db = (phase', db')) :
    step conference ⟨db, Function.update phases user phase, loads⟩ (.load user) =
      ⟨db', Function.update phases user phase', loads⟩ := by
  have hself : (Batch.mk db (Function.update phases user phase) loads).phase user = phase :=
    Function.update_self _ _ _
  have hnext : ((Batch.mk db (Function.update phases user phase) loads).phase user).next
      (.role conference user) .ready db = (phase', db') := by
    rw [hself, h]
  rw [step, hself, hbegun, if_neg Bool.false_ne_true, look_of_next hnext, hself, hmissed]
  dsimp only
  rw [Function.update_idem]
  rfl

/-- The first turn behind a miss asks the cache of records, and it counts as a load. -/
theorem step_missed {phase : LookupPhase} {db : Database} (h : σ.phase user = .missed)
    (hnext : LookupPhase.next (.role conference user) .ready σ.db .missed = (phase, db)) :
    σ.step conference (.load user) =
      ⟨db, Function.update σ.phase user phase, user :: σ.loads⟩ := by
  rw [← h] at hnext
  rw [step, h, if_neg (by decide), look_of_next hnext, h]
  rfl

/-- A lookup that the cache has no answer for loads a role and sets it. -/
theorem foldl_missed (conference : Int64) (h : σ.phase user = .missed) : ∃ t value db,
    (roleValue conference user).run σ.db = (.ok value, db) ∧
      (List.replicate 4 (Turn.load user)).foldl (step conference) σ =
        ⟨{ db with
            caches := db.caches.set db.clock .userRoles (Invalidation.role conference user).key
              value },
          Function.update σ.phase user (.stored t value .ready), user :: σ.loads⟩ := by
  have hload : (roleValue conference user).run σ.db = ((CachedEntry.role conference user).value
      ((CachedEntry.role conference user).fetch σ.db).1,
      ((CachedEntry.role conference user).fetch σ.db).2) :=
    CachedEntry.run_roleValue conference user σ.db
  rw [CachedEntry.fetch] at hload
  rw [List.replicate_succ, List.replicate_succ, List.replicate_succ, List.replicate_succ,
    List.replicate_zero, List.foldl_cons, List.foldl_cons, List.foldl_cons, List.foldl_cons,
    List.foldl_nil]
  cases hheld : (CachedEntry.role conference user).heldRecord σ.db with
  | mk recalled db =>
    rw [hheld] at hload
    cases recalled with
    | some r =>
      -- The record is at hand: the second turn makes the value, the third sets it.
      have hnext : LookupPhase.next (.role conference user) .ready σ.db .missed =
          (.loaded ⟨.ok (some r), true, .ready⟩, db) := by
        rw [LookupPhase.next, hheld]
      obtain ⟨value, hrole⟩ := exists_value conference user (.ok (some r))
      refine ⟨⟨.ok (some r), true, .ready⟩, value, db, ?_, ?_⟩
      · rw [hload, hrole]
      · rw [step_missed h hnext, step_updated rfl rfl (next_loaded hrole db),
          step_updated rfl rfl rfl, step_updated rfl rfl rfl]
    | none =>
      -- The shelf is read in the second turn, so the value is set with the fourth.
      have hnext : LookupPhase.next (.role conference user) .ready σ.db .missed =
          (.unrecalled, db) := by
        rw [LookupPhase.next, hheld]
      obtain ⟨value, hrole⟩ := exists_value conference user
        ((CachedEntry.role conference user).read db.shelf)
      refine ⟨⟨(CachedEntry.role conference user).read db.shelf, false, .ready⟩, value,
        (CachedEntry.role conference user).keep db
          ((CachedEntry.role conference user).read db.shelf),
        ?_, ?_⟩
      · rw [hload, hrole]
      · rw [step_missed h hnext, step_updated rfl rfl rfl, step_updated rfl rfl rfl,
          step_updated rfl rfl (next_loaded hrole _)]

theorem foldl_found {value : Json} (h : σ.phase user = .found value) (n : ℕ) :
    (List.replicate n (Turn.load user)).foldl (step conference) σ = σ := by
  have hstep : σ.step conference (.load user) = σ := by
    rw [step, h, if_neg (by exact Bool.false_ne_true),
      Consistent.look_of_done (by rw [h]; rfl) (by rw [h]; rfl)]
  induction n with
  | zero => rfl
  | succ n ih => rw [List.replicate_succ, List.foldl_cons, hstep, ih]

/-- Four turns of one user give him a role, touch no other lookup and do what loading him first
does. -/
theorem foldl_first (conference : Int64) {found : Option Json} (h : σ.phase user = answer found) :
    ∃ value, ((List.replicate 4 (Turn.load user)).foldl (step conference) σ).role? user =
        some (value.toInt64?.getD 0) ∧
      (∀ other, other ≠ user →
        ((List.replicate 4 (Turn.load user)).foldl (step conference) σ).phase other =
          σ.phase other) ∧
      ∀ {rest values db}, (loadMissing .userRoles
          (fun user => (Invalidation.role conference user).key) (roleValue conference) rest).run
          ((List.replicate 4 (Turn.load user)).foldl (step conference) σ).db = (.ok values, db) →
        (loadMissing .userRoles (fun user => (Invalidation.role conference user).key)
          (roleValue conference) ((user, found) :: rest)).run σ.db =
          (.ok ((user, value) :: values), db) := by
  cases found with
  | some value =>
    rw [foldl_found h]
    refine ⟨value, by rw [role?, h]; rfl, fun _ _ => rfl, fun hrest => ?_⟩
    rw [loadMissing, run_bind_of_ok hrest]
    rfl
  | none =>
    obtain ⟨t, value, db, hvalue, hturns⟩ := foldl_missed conference h
    rw [hturns]
    refine ⟨value, ?_, fun other hother => Function.update_of_ne hother _ _, fun hrest => ?_⟩
    · rw [role?]
      dsimp only
      rw [Function.update_self]
      rfl
    · have hcache : (cache .userRoles (Invalidation.role conference user).key value).run db =
          (.ok (), { db with
            caches := db.caches.set db.clock .userRoles (Invalidation.role conference user).key
              value }) := rfl
      rw [loadMissing, run_bind_of_ok hvalue, run_bind_of_ok hcache, run_bind_of_ok hrest]
      rfl

/-- Loading the missing roles in order is a batch in which one user comes after another. -/
theorem run_loadMissing_eq (conference : Int64) (hdistinct : users.Nodup)
    {found : Int64 → Option Json}
    (hfound : ∀ user ∈ users, σ.phase user = answer (found user)) :
    (∃ values, (loadMissing .userRoles (fun user => (Invalidation.role conference user).key)
        (roleValue conference) (users.map fun user => (user, found user))).run σ.db =
          (.ok values, ((inTurn users).foldl (step conference) σ).db) ∧
        values.map (fun entry => (entry.1, entry.2.toInt64?.getD 0)) = users.map fun user =>
          (user, (((inTurn users).foldl (step conference) σ).role? user).getD 0)) ∧
      (∀ user ∈ users, ∃ n, ((inTurn users).foldl (step conference) σ).role? user = some n) ∧
      ∀ user, user ∉ users →
        ((inTurn users).foldl (step conference) σ).phase user = σ.phase user := by
  induction users generalizing σ with
  | nil => exact ⟨⟨[], rfl, rfl⟩, fun _ h => absurd h List.not_mem_nil, fun _ _ => rfl⟩
  | cons first users ih =>
    obtain ⟨hnew, hdistinct⟩ := List.nodup_cons.1 hdistinct
    have hne : ∀ user ∈ users, user ≠ first := fun user hmem heq => hnew (heq ▸ hmem)
    have hturns : (inTurn (first :: users)).foldl (step conference) σ = (inTurn users).foldl
        (step conference) ((List.replicate 4 (Turn.load first)).foldl (step conference) σ) := by
      rw [inTurn, List.flatMap_cons, List.foldl_append]
      rfl
    obtain ⟨value, hfirst, hkept, hextend⟩ :=
      foldl_first conference (hfound first List.mem_cons_self)
    obtain ⟨⟨values, hload, hvalues⟩, hall, hothers⟩ := ih hdistinct
      (σ := (List.replicate 4 (Turn.load first)).foldl (step conference) σ)
      fun user hmem => (hkept user (hne user hmem)).trans
        (hfound user (List.mem_cons_of_mem _ hmem))
    -- The later users leave the first one's lookup as his own turns have left it.
    have hrole : ((inTurn users).foldl (step conference)
        ((List.replicate 4 (Turn.load first)).foldl (step conference) σ)).role? first =
        some (value.toInt64?.getD 0) := by
      rw [role?, hothers first hnew]
      exact hfirst
    rw [hturns, List.map_cons, List.map_cons]
    refine ⟨⟨(first, value) :: values, hextend hload, ?_⟩, ?_, fun user hmem => ?_⟩
    · rw [List.map_cons, hvalues, hrole, Option.getD_some]
    · exact List.forall_mem_cons.2 ⟨⟨_, hrole⟩, hall⟩
    · rw [hothers user fun h => hmem (List.mem_cons_of_mem _ h)]
      exact hkept user (List.ne_of_not_mem_cons hmem)

/-- Looking up all roles at once is one of the batches, and in it every user gets a role. -/
theorem run_userRoles_eq (conference : Int64) (users : List Int64) (start : Database) :
    (∀ user ∈ users, ∃ n,
        (run conference users start (inTurn users.eraseDups)).role? user = some n) ∧
      (userRoles conference users).run start =
        (.ok (users.eraseDups.map fun user =>
            (user, ((run conference users start (inTurn users.eraseDups)).role? user).getD 0)),
          (run conference users start (inTurn users.eraseDups)).db) := by
  have hasked := @run_cachedAll_eq _ ⟨start, fun _ => .begun, []⟩ conference
    (nodup_eraseDups users) fun _ _ => rfl
  have hphase : ∀ user ∈ users.eraseDups, (asked conference users start).phase user =
      answer (cachedRole? start conference user) := by
    intro user hmem
    rw [(asked_eq conference users start).2.2, if_pos (List.mem_eraseDups.1 hmem)]
  obtain ⟨⟨values, hload, hvalues⟩, hall, -⟩ :=
    run_loadMissing_eq conference (nodup_eraseDups users) hphase
  refine ⟨fun user hmem => hall user (List.mem_eraseDups.2 hmem), ?_⟩
  have hlookup : (lookupAll .userRoles (fun user => (Invalidation.role conference user).key) users
      (roleValue conference)).run start =
        (.ok values, (run conference users start (inTurn users.eraseDups)).db) := by
    rw [lookupAll, run_bind_of_ok hasked]
    exact hload
  rw [userRoles, run_bind_of_ok hlookup]
  exact congrArg (fun roles => (Except.ok roles, _)) hvalues

/-! ## Batches and single lookups -/

/-- Whatever turns the loads of a batch take, its users and no others get roles, each of them at the
latest with the fourth turn; what the cache does not have is loaded once, and nothing else. The role
is the one that a lookup of this user alone gives at the start, or, if the cache of records had a
record of the user that was pushed out or had grown too old before it was looked for, the one that a
lookup gives without this record. Looking up all roles at once takes turns of this kind. -/
theorem roles_agree (conference : Int64) (users : List Int64) {start : Database}
    (hstart : start.records.Distinct) :
    (∀ turns,
      ((∀ user ∈ users, 4 ≤ turns.count (.load user)) →
        ∀ user, (∃ n, (run conference users start turns).role? user = some n) ↔ user ∈ users) ∧
      (∀ user, (run conference users start turns).loads.count user ≤
        if user ∈ missing conference users start then 1 else 0) ∧
      ∀ user n, (run conference users start turns).role? user = some n →
        user ∈ users ∧
        ((run conference users start turns).loads.count user =
          if user ∈ missing conference users start then 1 else 0) ∧
        (¬PushedOut conference start (run conference users start turns) user →
          ((userRole conference user).run start).1 = .ok n) ∧
        (PushedOut conference start (run conference users start turns) user →
          ((userRole conference user).run (withoutRecord conference start user)).1 = .ok n ∧
          (Crowded conference users start ∨
            Aged conference start user (run conference users start turns).db.clock))) ∧
    ∃ turns, (∀ user ∈ users, ∃ n, (run conference users start turns).role? user = some n) ∧
      (userRoles conference users).run start =
        (.ok (users.eraseDups.map fun user =>
            (user, ((run conference users start turns).role? user).getD 0)),
          (run conference users start turns).db) := by
  refine ⟨fun turns => ?_, _, run_userRoles_eq conference users start⟩
  have h := consistent_run conference users hstart turns
  have hmem : ∀ user n, (run conference users start turns).role? user = some n → user ∈ users := by
    intro user n hn
    rcases h.role?_eq_some hn with ⟨-, hmem, -⟩ | ⟨-, -, hmissing, -⟩
    · exact hmem
    · exact (mem_missing.1 hmissing).1
  refine ⟨fun hturns user => ⟨fun ⟨n, hn⟩ => hmem user n hn, fun hu => ?_⟩, fun user => ?_,
    fun user n hn => ⟨hmem user n hn, ?_, h.role_alone hn, h.role_without hstart hn⟩⟩
  · exact done_of_turns hstart hu (hturns user hu)
  · split_ifs with hmissing
    · exact List.nodup_iff_count_le_one.1 h.loads user
    · have hunloaded : user ∉ (run conference users start turns).loads := fun hloaded =>
        hmissing ((h.standing user).mem_missing hloaded)
      exact (List.count_eq_zero.2 hunloaded).le
  · rcases h.role?_eq_some hn with ⟨value, -, hunloaded, hcached, -⟩ | ⟨-, -, hmissing, hloaded, -⟩
    · rw [if_neg fun hmissing => nomatch hcached.symm.trans (mem_missing.1 hmissing).2]
      exact List.count_eq_zero.2 hunloaded
    · rw [if_pos hmissing]
      exact List.count_eq_one_of_mem h.loads hloaded

/-- The user 1 has the role 10. The cache of records has room for one record, and it has one of the
user 2, who has no role on the shelf. -/
def tight : Database :=
  ((do
    onShelf (ShelfM.put "roles_100" "1" [("role_id", .ofInt64 10)])
    cacheRecord "role_100_2" (.object [("role_id", .ofInt64 99)]) : DatabaseM Unit).run
    (.create { Settings.default with cache := ⟨30000, 1, []⟩ } 1 1 none)).2

theorem distinct_tight : tight.records.Distinct := by
  unfold TimedCache.Distinct
  decide +kernel

theorem roles_agree_tight : tight.records.Distinct ∧ ∃ turns,
    (∀ user ∈ [1, 2], ∃ n, (run 100 [1, 2] tight turns).role? user = some n) ∧
      (userRoles 100 [1, 2]).run tight =
        (.ok ([1, 2].eraseDups.map fun user =>
            (user, ((run 100 [1, 2] tight turns).role? user).getD 0)),
          (run 100 [1, 2] tight turns).db) :=
  ⟨distinct_tight, (roles_agree 100 [1, 2] distinct_tight).2⟩

/-- The load of one user's role pushes out the record of the next one. -/
theorem record_pushed_out :
    ((userRoles 100 [1, 2]).run tight).1.toOption = some [(1, 10), (2, 0)] ∧
      ((userRole 100 2).run tight).1.toOption = some 99 := by
  decide +kernel

end Batch

end RecordShelf

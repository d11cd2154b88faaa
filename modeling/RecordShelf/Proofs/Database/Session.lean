import RecordShelf.Proofs.Database.CachedReads

/-!
# Sessions

A session looks up roles and nicknames, sets them, drops cached roles, sweeps the caches and lets
time go on. Every action keeps the caches right, so a lookup at any moment of a session gives what it
gives over the same shelf with nothing cached.
-/

namespace RecordShelf

namespace DatabaseM
open Database
variable {db : Database} {pre column : String} {n user : Int64} {value : Json} {i : Invalidation}

/-! ## Writes -/

/-- The statement of a writer changes at most the record of the user, and nothing if it fails. -/
theorem agreesOff_of_upsert (hdb : db.Standard) (hpre : TablePrefix pre)
    (hcolumn : column ∈ writtenColumns) (huser : user ≠ 0) {outcome : Except Error Query.Result}
    {s' : Shelf}
    (h : (Query.executeText db.settings.rules db.now
      ("INSERT INTO " ++ (pre ++ idText n ++ upsertTail column))
      (.positional [.ofInt64 user, value])).run db.shelf = (outcome, s')) :
    db.shelf.AgreesOff s' (some (pre ++ idText n, idText user)) ∧
      ((∃ e, outcome = .error e) → db.shelf.AgreesOff s' none) := by
  have hother : ∀ column ∈ writtenColumns, column ∉ Settings.default.identityFields := by
    decide
  by_cases hn : n < 0
  · obtain ⟨cause, hparse⟩ := parse_upsert_neg hpre hcolumn hn
    simp only [Query.executeText, hparse] at h
    obtain rfl := (Prod.mk.inj h).2
    exact ⟨.refl _ _, fun _ => .refl _ _⟩
  · simp only [Query.executeText, parse_upsert hpre hcolumn (Int64.not_lt.1 hn), Query.execute,
      hdb.rules] at h
    exact Query.agreesOff_of_executeInsert (hother column hcolumn)
      (hpre.not_autoIncrement (idText n) hdb.autoIncrement) huser h

theorem faithful_writeColumn (hdb : db.Faithful) (hpre : TablePrefix pre)
    (hcolumn : column ∈ writtenColumns) (huser : user ≠ 0)
    (hi : ∀ j, Invalidation.Concerns j (pre ++ idText n, idText user) → j = i) :
    ((writeColumn pre column n user value i).run db).2.Faithful := by
  apply hdb.executeWrite
  intro outcome s' hrun
  obtain ⟨hwritten, hfailed⟩ := agreesOff_of_upsert hdb.standard hpre hcolumn huser hrun
  refine ⟨staysOff_members hwritten fun at' hat j hconcerns => ?_, fun hfails => ?_⟩
  · obtain rfl := Option.some.inj hat
    rw [hi j hconcerns]
  · exact staysOff_members (hfailed hfails) fun _ hat => absurd hat (by simp)

theorem faithful_setUserRole (hdb : db.Faithful) (conference role : Int64) (huser : user ≠ 0) :
    ((setUserRole conference user role).run db).2.Faithful := by
  rw [setUserRole_eq]
  exact faithful_writeColumn hdb tablePrefix_roles (by decide) huser fun _ =>
    Invalidation.eq_of_concerns_role

theorem faithful_setUserNickname (hdb : db.Faithful) (peer : Int64) (nickname : String)
    (huser : user ≠ 0) : ((setUserNickname peer user nickname).run db).2.Faithful := by
  rw [setUserNickname_eq]
  exact faithful_writeColumn hdb tablePrefix_nicknames (by decide) huser fun _ =>
    Invalidation.eq_of_concerns_nickname

end DatabaseM

/-! ## Actions of a session -/

namespace Database
open DatabaseM

/-- What is looked up. -/
inductive Lookup where
  | role (conference user : Int64)
  | roles (conference : Int64) (users : List Int64)
  | nickname (peer user : Int64)

inductive Answer where
  | role (role : Int64)
  | roles (found : List (Int64 × Int64))
  | nickname (nickname : Option String)

def Lookup.run : Lookup → DatabaseM Answer
  | .role conference user => return .role (← userRole conference user)
  | .roles conference users => return .roles (← userRoles conference users)
  | .nickname peer user => return .nickname (← userNickname peer user)

/-- What may happen in a session. Users have other numbers than zero when something is set. -/
inductive Action where
  | look (l : Lookup)
  | setRole (conference user role : Int64) (other : user ≠ 0)
  | setNickname (peer user : Int64) (nickname : String) (other : user ≠ 0)
  | dropRole (conference user : Int64)
  | sweep
  | sweepNamespace (ns : Namespace)
  | sweepRecords
  | advance (ms : ℕ)
  | calendar (now : ℕ)
  | startSweeps
  | stopSweeps

/-- The database after an action, whether it fails or not. -/
def Action.after (db : Database) : Action → Database
  | .look l => (l.run.run db).2
  | .setRole conference user role _ => ((setUserRole conference user role).run db).2
  | .setNickname peer user nickname _ => ((setUserNickname peer user nickname).run db).2
  | .dropRole conference user => ((invalidate (.role conference user)).run db).2
  | .sweep => { db with caches := (db.caches.sweep db.clock).2 }
  | .sweepNamespace ns => { db with caches := (db.caches.sweepNamespace db.clock ns).2 }
  | .sweepRecords => { db with records := (db.records.sweep db.clock).2 }
  | .advance ms => db.advance ms
  | .calendar now => { db with now := now }
  | .startSweeps => db.startSweeps
  | .stopSweeps => db.stopSweeps

/-- What a lookup gives over a shelf. -/
def Lookup.answer (s : Shelf) : Lookup → Except Error Answer
  | .role conference user => .ok (.role (s.roleAt conference user))
  | .roles conference users =>
    .ok (.roles (users.eraseDups.map fun user => (user, s.roleAt conference user)))
  | .nickname peer user => (s.nicknameAt peer user).map fun v => .nickname v.string?

theorem Lookup.reads (l : Lookup) : Reads l.run fun s => l.answer s := by
  cases l with
  | role conference user => exact (reads_userRole conference user).map Answer.role
  | roles conference users => exact (reads_userRoles conference users).map Answer.roles
  | nickname peer user =>
    apply ((reads_userNickname peer user).map Answer.nickname).congr
    intro s
    unfold Lookup.answer
    dsimp only
    cases s.nicknameAt peer user <;> rfl

variable {db : Database}

theorem Action.faithful (hdb : db.Faithful) (a : Action) : (a.after db).Faithful := by
  cases a with
  | look l => exact l.reads.right hdb
  | setRole conference user role other => exact faithful_setUserRole hdb conference role other
  | setNickname peer user nickname other =>
    exact faithful_setUserNickname hdb peer nickname other
  | dropRole conference user =>
    exact hdb.invalidate rfl (.refl _ _ _)
  | sweep => exact hdb.sweep
  | sweepNamespace ns => exact hdb.sweepNamespace ns
  | sweepRecords => exact hdb.sweepRecords
  | advance ms => exact hdb.advance ms
  | calendar now => exact hdb.calendar now
  | startSweeps => exact hdb.startSweeps
  | stopSweeps => exact hdb.stopSweeps

/-- The database after a session. -/
def afterAll (db : Database) (session : List Action) : Database := session.foldl Action.after db

theorem Faithful.afterAll (hdb : db.Faithful) (session : List Action) :
    (db.afterAll session).Faithful := by
  induction session generalizing db with
  | nil => exact hdb
  | cons a session ih => exact ih (a.faithful hdb)

/-- Whatever has been done in a session over some shelf that starts with empty caches, a lookup gives
what it gives when nothing is cached. -/
theorem lookup_eq_uncached (directory : String) (process now : ℕ) (root : Option Node)
    (session : List Action) (l : Lookup) :
    let db := (create { Settings.default with dataDirectory := directory } process now root).afterAll
      session
    (l.run.run db).1 = (l.run.run db.emptied).1 := by
  intro db
  have hdb : db.Faithful := Faithful.afterAll (.create _ directory process now root) session
  calc (l.run.run db).1 = l.answer db.shelf := l.reads.fst_run hdb
    _ = (l.run.run db.emptied).1 := (l.reads.fst_run hdb.emptied).symm

end Database

end RecordShelf

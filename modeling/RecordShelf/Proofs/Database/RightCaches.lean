import RecordShelf.Proofs.Database.Steps

/-!
# Caches with right entries

What may stand in the caches is judged over the shelf: `Cachable` says which values are right for a
namespace and a name, and which records are right for a name. In a database with right caches an
action that goes through them answers from the shelf. A change of the shelf keeps the caches right if
whatever it makes wrong is dropped.
-/

namespace RecordShelf
open DatabaseM

/-- Which entries are right over a shelf: values of a namespace by name, and records by name. -/
structure Cachable where
  value : Shelf → Namespace → String → Json → Prop
  record : Shelf → String → Json → Prop

/-- What is right over a shelf is right over another one, unless an invalidation drops it. -/
structure Cachable.StaysOff (c : Cachable) (s s' : Shelf) (i : Option Invalidation) : Prop where
  value : ∀ ns key v, some ⟨ns, key⟩ ≠ i → c.value s ns key v → c.value s' ns key v
  record : ∀ name v, (∀ j ∈ i, j.recordName? ≠ some name) → c.record s name v → c.record s' name v

theorem Cachable.StaysOff.refl (c : Cachable) (s : Shelf) (i : Option Invalidation) :
    c.StaysOff s s i := ⟨fun _ _ _ _ h => h, fun _ _ _ h => h⟩

/-- Under the default settings, with only right entries in the caches. -/
structure Database.Right (c : Cachable) (db : Database) : Prop where
  standard : db.Standard
  values : db.caches.Agrees (c.value db.shelf)
  records : db.records.Agrees (c.record db.shelf)

/-- A database over the same shelf, with nothing in its caches. -/
def Database.emptied (db : Database) : Database :=
  { db with caches := db.caches.reset, records := db.records.clear }

namespace Database.Right
open Database
variable {c : Cachable} {db : Database} {s' : Shelf}

theorem create (c : Cachable) (directory : String) (process now : ℕ) (root : Option Node) :
    Right c (create { Settings.default with dataDirectory := directory } process now root) :=
  ⟨standard_create directory process now root, Caches.agrees_create _ _ _,
    TimedCache.agrees_create _ _ _⟩

theorem emptied (h : db.Right c) : db.emptied.Right c :=
  ⟨⟨h.standard.settings, h.standard.autoIncrement, Caches.distinct_reset _, List.nodup_nil⟩,
    Caches.agrees_reset _ _, TimedCache.agrees_clear _ _⟩

theorem advance (h : db.Right c) (ms : ℕ) : (db.advance ms).Right c := by
  refine ⟨h.standard.advance ms, ?_, ?_⟩
  · rw [shelf_advance]
    exact agrees_caches_advance h.values ms
  · rw [shelf_advance]
    exact agrees_records_advance h.records ms

theorem setCaches (h : db.Right c) {caches : Caches} (hdistinct : caches.Distinct)
    (hvalues : caches.Agrees (c.value db.shelf)) : Right c { db with caches := caches } :=
  ⟨⟨h.standard.settings, h.standard.autoIncrement, hdistinct, h.standard.records⟩, hvalues,
    h.records⟩

theorem setRecords (h : db.Right c) {records : TimedCache Json}
    (hdistinct : records.Distinct) (hrecords : records.Agrees (c.record db.shelf)) :
    Right c { db with records := records } :=
  ⟨⟨h.standard.settings, h.standard.autoIncrement, h.standard.caches, hdistinct⟩, h.values,
    hrecords⟩

theorem calendar (h : db.Right c) (now : ℕ) : Right c { db with now := now } :=
  ⟨⟨h.standard.settings, h.standard.autoIncrement, h.standard.caches, h.standard.records⟩,
    h.values, h.records⟩

theorem startSweeps (h : db.Right c) : db.startSweeps.Right c :=
  ⟨Step.startSweeps.standard h.standard, h.values, h.records⟩

theorem stopSweeps (h : db.Right c) : db.stopSweeps.Right c :=
  ⟨Step.stopSweeps.standard h.standard, h.values, h.records⟩

theorem sweep (h : db.Right c) : Right c { db with caches := (db.caches.sweep db.clock).2 } :=
  h.setCaches (h.standard.caches.sweep _) (h.values.sweep _)

theorem sweepNamespace (h : db.Right c) (ns : Namespace) :
    Right c { db with caches := (db.caches.sweepNamespace db.clock ns).2 } :=
  h.setCaches (h.standard.caches.setCache ns ((h.standard.caches ns).sweep _))
    (h.values.sweepNamespace _ ns)

theorem sweepRecords (h : db.Right c) :
    Right c { db with records := (db.records.sweep db.clock).2 } :=
  h.setRecords (h.standard.records.sweep _) (h.records.sweep _)

/-- A change that no entry of the caches notices. -/
theorem setShelf (h : db.Right c) (hauto : s'.autoIncrement = db.shelf.autoIncrement)
    (hstays : c.StaysOff db.shelf s' none) : Right c { db with shelf := s' } :=
  ⟨⟨h.standard.settings, hauto.trans h.standard.autoIncrement, h.standard.caches,
    h.standard.records⟩,
    fun ns => (h.values ns).mono fun key v => hstays.value ns key v (by simp),
    h.records.mono fun name v => hstays.record name v fun _ hj => absurd hj (by simp)⟩

/-- A change that only the entries notice which are dropped after it. -/
theorem invalidate (h : db.Right c) {i : Invalidation}
    (hauto : s'.autoIncrement = db.shelf.autoIncrement)
    (hstays : c.StaysOff db.shelf s' (some i)) :
    ((DatabaseM.invalidate i).run { db with shelf := s' }).2.Right c := by
  have hstandard : Standard { db with shelf := s' } :=
    ⟨h.standard.settings, hauto.trans h.standard.autoIncrement, h.standard.caches,
      h.standard.records⟩
  have hkept : (db.caches.invalidate i.space i.key).Agrees (c.value s') := by
    refine Caches.Agrees.invalidate h.values h.standard.caches fun ns key v hne => ?_
    refine hstays.value ns key v fun hsame => hne ?_
    rw [← Option.some.inj hsame]
  have hfree : ∀ name v, i.recordName? ≠ some name → c.record db.shelf name v → c.record s' name v := by
    intro name v hname
    apply hstays.record
    intro j hj
    obtain rfl := Option.some.inj hj
    exact hname
  refine ⟨(moves_invalidate i).keeps (fun _ _ => Step.standard) hstandard, hkept, ?_⟩
  rw [run_invalidate]
  cases hdrop : i.recordName? with
  | none => exact h.records.mono fun name v => hfree name v (by rw [hdrop]; simp)
  | some dropped =>
    refine TimedCache.Agrees.invalidate h.records h.standard.records fun name v hne => ?_
    refine hfree name v ?_
    rw [hdrop]
    exact fun hsame => hne (Option.some.inj hsame).symm

/-- A write that drops what its change makes wrong, and changes nothing if it fails. -/
theorem executeWrite (h : db.Right c) {sql : String} {params : Query.Params} {i : Invalidation}
    (hwrite : ∀ outcome s', (Query.executeText db.settings.rules db.now sql params).run db.shelf =
      (outcome, s') → c.StaysOff db.shelf s' (some i) ∧
        ((∃ e, outcome = .error e) → c.StaysOff db.shelf s' none)) :
    ((DatabaseM.executeWrite sql params [i]).run db).2.Right c := by
  cases hrun : (Query.executeText db.settings.rules db.now sql params).run db.shelf with
  | mk outcome s' =>
    have hauto : s'.autoIncrement = db.shelf.autoIncrement := by
      have hkeeps : Moves Shelf.Step (Query.executeText db.settings.rules db.now sql params) :=
        Query.moves_executeText db.now sql params
      have hkept := hkeeps.keeps (P := fun s => s.autoIncrement = db.shelf.autoIncrement)
        (fun _ _ hstep hs => hstep.autoIncrement.trans hs) (s := db.shelf) rfl
      rwa [hrun] at hkept
    obtain ⟨hwritten, hfailed⟩ := hwrite outcome s' hrun
    have hexecute : (execute sql params).run db = (outcome, { db with shelf := s' }) := by
      rw [execute, run_bind_of_ok (run_getThe db), run_onShelf, hrun]
    cases outcome with
    | error e =>
      rw [DatabaseM.executeWrite, run_bind_of_error hexecute]
      exact h.setShelf hauto (hfailed ⟨e, rfl⟩)
    | ok result =>
      have hinvalidate : (invalidateAll [i]).run { db with shelf := s' } =
          (.ok (), ((DatabaseM.invalidate i).run { db with shelf := s' }).2) := by
        rw [invalidateAll]
        exact run_bind_of_ok rfl
      rw [DatabaseM.executeWrite, run_bind_of_ok hexecute, run_bind_of_ok hinvalidate]
      exact h.invalidate hauto hwritten

end Database.Right

namespace DatabaseM
open Database
variable {α β : Type} {c : Cachable} {db : Database}

/-- In a database with right caches the action answers from the shelf, which it leaves as it is. -/
def ReadsBy (c : Cachable) (act : DatabaseM α) (answer : Shelf → Except Error α) : Prop :=
  ∀ db, Right c db → ∃ db', act.run db = (answer db.shelf, db') ∧ db'.shelf = db.shelf ∧ db'.Right c

namespace ReadsBy
variable {act : DatabaseM α} {answer : Shelf → Except Error α}

theorem congr (h : ReadsBy c act answer) {answer' : Shelf → Except Error α}
    (heq : ∀ s, answer s = answer' s) : ReadsBy c act answer' :=
  funext heq ▸ h

theorem map (h : ReadsBy c act answer) (f : α → β) :
    ReadsBy c (do return f (← act)) fun s => (answer s).map f := by
  intro db hdb
  obtain ⟨db', hrun, hshelf, hdb'⟩ := h db hdb
  refine ⟨db', ?_, hshelf, hdb'⟩
  dsimp only
  cases hanswer : answer db.shelf with
  | error e =>
    rw [hanswer] at hrun
    rw [run_bind_of_error hrun]
    rfl
  | ok a =>
    rw [hanswer] at hrun
    rw [run_bind_of_ok hrun]
    rfl

theorem tryCatch (h : ReadsBy c act answer) (a : α) :
    ReadsBy c (tryCatch act fun _ => pure a) fun s => .ok ((answer s).toOption.getD a) := by
  intro db hdb
  obtain ⟨db', hrun, hshelf, hdb'⟩ := h db hdb
  refine ⟨db', ?_, hshelf, hdb'⟩
  dsimp only
  cases hanswer : answer db.shelf with
  | error e =>
    rw [hanswer] at hrun
    rw [run_tryCatch_of_error hrun]
    rfl
  | ok a =>
    rw [hanswer] at hrun
    rw [run_tryCatch_of_ok hrun]
    rfl

theorem fst_run (h : ReadsBy c act answer) (hdb : db.Right c) :
    (act.run db).1 = answer db.shelf := by
  obtain ⟨db', hrun, -⟩ := h db hdb
  rw [hrun]

theorem right (h : ReadsBy c act answer) (hdb : db.Right c) : (act.run db).2.Right c := by
  obtain ⟨db', hrun, -, hdb'⟩ := h db hdb
  rw [hrun]
  exact hdb'

end ReadsBy

theorem readsBy_onShelf (c : Cachable) (table key : String) :
    ReadsBy c (onShelf (ShelfM.get table key)) fun s => s.get table key := by
  intro db hdb
  refine ⟨db, ?_, rfl, hdb⟩
  rw [run_onShelf, ShelfM.get, ShelfM.run_read]

theorem run_cached? (ns : Namespace) (key : String) (db : Database) : (cached? ns key).run db =
    (.ok (db.caches.get db.clock ns key).1,
      { db with caches := (db.caches.get db.clock ns key).2 }) := rfl

theorem right_cached? (hdb : db.Right c) (ns : Namespace) (key : String) :
    ((cached? ns key).run db).2.Right c :=
  hdb.setCaches (hdb.standard.caches.get _ _ _) (hdb.values.get _ _ _)

theorem right_cache (hdb : db.Right c) {ns : Namespace} {key : String} {v : Json}
    (hv : c.value db.shelf ns key v) : ((cache ns key v).run db).2.Right c :=
  hdb.setCaches (hdb.standard.caches.set _ _ _ _) (hdb.values.set hv _)

/-- A lookup where what is right for the name is what is loaded. -/
theorem readsBy_lookup {ns : Namespace} {key : String} {load : DatabaseM Json}
    {answer : Shelf → Except Error Json} (hload : ReadsBy c load answer)
    (hright : ∀ s v, c.value s ns key v ↔ answer s = .ok v) :
    ReadsBy c (lookup ns key load) answer := by
  intro db hdb
  have hcached := run_cached? ns key db
  have hafter : Right c { db with caches := (db.caches.get db.clock ns key).2 } :=
    right_cached? hdb ns key
  cases hfound : (db.caches.get db.clock ns key).1 with
  | some v =>
    rw [hfound] at hcached
    refine ⟨{ db with caches := (db.caches.get db.clock ns key).2 }, ?_, rfl, hafter⟩
    rw [lookup, run_bind_of_ok hcached, (hright _ v).1 (hdb.values.right_of_get hfound)]
    rfl
  | none =>
    rw [hfound] at hcached
    obtain ⟨db', hrun, hshelf, hdb'⟩ := hload _ hafter
    rw [lookup, run_bind_of_ok hcached]
    dsimp only at hrun hshelf ⊢
    cases hanswer : answer db.shelf with
    | error e =>
      rw [hanswer] at hrun
      exact ⟨db', run_bind_of_error hrun, hshelf, hdb'⟩
    | ok v =>
      rw [hanswer] at hrun
      have hv : c.value db'.shelf ns key v := (hright _ v).2 (by rw [hshelf, hanswer])
      exact ⟨_, run_bind_of_ok hrun, hshelf, right_cache hdb' hv⟩

/-- A record through the cache of records where the stored one is right for the name. -/
theorem readsBy_record? {name table key : String}
    (hright : ∀ s v, c.record s name v ↔ ∃ r, s.get table key = .ok (some r) ∧ v = .object r) :
    ReadsBy c (record? name table key) fun s => (s.get table key).map (·.map Json.object) := by
  intro db hdb
  have hcached : (cachedRecord? name).run db = (.ok (db.records.get db.clock name).1,
      { db with records := (db.records.get db.clock name).2 }) := rfl
  have hafter := hdb.setRecords (hdb.standard.records.get db.clock name)
    (hdb.records.get db.clock name)
  cases hfound : (db.records.get db.clock name).1 with
  | some v =>
    obtain ⟨r, hget, rfl⟩ := (hright _ v).1 (hdb.records.right_of_get hfound)
    rw [hfound] at hcached
    refine ⟨{ db with records := (db.records.get db.clock name).2 }, ?_, rfl, hafter⟩
    rw [record?, run_bind_of_ok hcached]
    dsimp only
    rw [hget]
    rfl
  | none =>
    rw [hfound] at hcached
    obtain ⟨db', hrun, hshelf, hdb'⟩ := readsBy_onShelf c table key _ hafter
    rw [record?, run_bind_of_ok hcached]
    dsimp only at hrun hshelf ⊢
    cases hget : db.shelf.get table key with
    | error e =>
      rw [hget] at hrun
      exact ⟨db', run_bind_of_error hrun, hshelf, hdb'⟩
    | ok r =>
      rw [hget] at hrun
      rw [run_bind_of_ok hrun]
      cases r with
      | none => exact ⟨db', rfl, hshelf, hdb'⟩
      | some r =>
        refine ⟨_, rfl, hshelf, hdb'.setRecords (hdb'.standard.records.set db'.clock name _)
          (hdb'.records.set ?_ _)⟩
        exact (hright _ _).2 ⟨r, by rw [hshelf, hget], rfl⟩

end DatabaseM

end RecordShelf

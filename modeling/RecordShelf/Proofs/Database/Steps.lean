import RecordShelf.Database.Chats
import RecordShelf.Database.Vip
import RecordShelf.Proofs.Database.Writers
import RecordShelf.Proofs.Query.Steps

/-!
# Steps of a database

An action on a database changes its shelf and its caches by single steps. Between two actions time
goes on, sweeps are started and stopped, and files come and go. Whatever happens, no name comes to
stand twice in a cache, and the settings stay as they are.
-/

namespace RecordShelf

/-- The single changes of a database. -/
inductive Database.Step (db : Database) : Database → Prop
  | shelf {s' : Shelf} (h : db.shelf.Step s') : Step db { db with shelf := s' }
  | files (root : Option Node) : Step db { db with shelf := { db.shelf with root := root } }
  | find (ns : Namespace) (key : String) :
      Step db { db with caches := (db.caches.get db.clock ns key).2 }
  | keep (ns : Namespace) (key : String) (value : Json) :
      Step db { db with caches := db.caches.set db.clock ns key value }
  | drop (ns : Namespace) (key : String) : Step db { db with caches := db.caches.invalidate ns key }
  | findRecord (name : String) : Step db { db with records := (db.records.get db.clock name).2 }
  | keepRecord (name : String) (value : Json) :
      Step db { db with records := db.records.set db.clock name value }
  | dropRecord (name : String) : Step db { db with records := (db.records.invalidate name).2 }
  | advance (ms : ℕ) : Step db (db.advance ms)
  | startSweeps : Step db db.startSweeps
  | stopSweeps : Step db db.stopSweeps

namespace Database
variable {db db' : Database}

/-- As time goes on the caches stay as they are or are swept. -/
theorem caches_advance (db : Database) (ms : ℕ) :
    (db.advance ms).caches = db.caches ∨ ∃ due, (db.advance ms).caches = (db.caches.sweep due).2 := by
  unfold Database.advance
  split
  · exact .inl rfl
  · dsimp only
    unfold sweepCaches
    split
    · exact .inr ⟨_, rfl⟩
    · exact .inl rfl

theorem records_advance (db : Database) (ms : ℕ) : (db.advance ms).records = db.records ∨
    ∃ due, (db.advance ms).records = (db.records.sweep due).2 := by
  unfold Database.advance
  split
  · exact .inl rfl
  · dsimp only
    unfold sweepRecords
    split
    · exact .inr ⟨_, rfl⟩
    · exact .inl rfl

theorem shelf_advance (db : Database) (ms : ℕ) : (db.advance ms).shelf = db.shelf := by
  unfold Database.advance
  split <;> rfl

theorem settings_advance (db : Database) (ms : ℕ) : (db.advance ms).settings = db.settings := by
  unfold Database.advance
  split <;> rfl

theorem distinct_caches_advance (h : db.caches.Distinct) (ms : ℕ) :
    (db.advance ms).caches.Distinct := by
  rcases db.caches_advance ms with hsame | ⟨due, hswept⟩
  · rwa [hsame]
  · rw [hswept]
    exact h.sweep due

theorem distinct_records_advance (h : db.records.Distinct) (ms : ℕ) :
    (db.advance ms).records.Distinct := by
  rcases db.records_advance ms with hsame | ⟨due, hswept⟩
  · rwa [hsame]
  · rw [hswept]
    exact h.sweep due

/-- What is right in the caches stays so as time goes on. -/
theorem agrees_caches_advance {right : Namespace → String → Json → Prop}
    (h : db.caches.Agrees right) (ms : ℕ) : (db.advance ms).caches.Agrees right := by
  rcases db.caches_advance ms with hsame | ⟨due, hswept⟩
  · rwa [hsame]
  · rw [hswept]
    exact h.sweep due

theorem agrees_records_advance {right : String → Json → Prop} (h : db.records.Agrees right)
    (ms : ℕ) : (db.advance ms).records.Agrees right := by
  rcases db.records_advance ms with hsame | ⟨due, hswept⟩
  · rwa [hsame]
  · rw [hswept]
    exact h.sweep due

theorem Standard.advance (h : db.Standard) (ms : ℕ) : (db.advance ms).Standard := by
  refine ⟨?_, ?_, distinct_caches_advance h.caches ms, distinct_records_advance h.records ms⟩
  · rw [settings_advance]
    exact h.settings
  · rw [shelf_advance]
    exact h.autoIncrement

theorem Step.standard (h : Step db db') (hdb : db.Standard) : db'.Standard := by
  obtain ⟨hsettings, hauto, hcaches, hrecords⟩ := hdb
  cases h with
  | shelf h => exact ⟨hsettings, h.autoIncrement.trans hauto, hcaches, hrecords⟩
  | files root => exact ⟨hsettings, hauto, hcaches, hrecords⟩
  | find ns key => exact ⟨hsettings, hauto, hcaches.get db.clock ns key, hrecords⟩
  | keep ns key value => exact ⟨hsettings, hauto, hcaches.set db.clock ns key value, hrecords⟩
  | drop ns key => exact ⟨hsettings, hauto, hcaches.invalidate ns key, hrecords⟩
  | findRecord name => exact ⟨hsettings, hauto, hcaches, hrecords.get db.clock name⟩
  | keepRecord name value => exact ⟨hsettings, hauto, hcaches, hrecords.set db.clock name value⟩
  | dropRecord name => exact ⟨hsettings, hauto, hcaches, hrecords.invalidate name⟩
  | advance ms => exact Standard.advance ⟨hsettings, hauto, hcaches, hrecords⟩ ms
  | startSweeps => exact ⟨hsettings, hauto, hcaches, hrecords⟩
  | stopSweeps => exact ⟨hsettings, hauto, hcaches, hrecords⟩

/-- A database that has come about under the default settings, whatever has been done with it. -/
def Reachable (db : Database) : Prop :=
  ∃ directory process now root, Relation.ReflTransGen Step
    (create { Settings.default with dataDirectory := directory } process now root) db

theorem Reachable.standard (h : db.Reachable) : db.Standard := by
  obtain ⟨directory, process, now, root, hsteps⟩ := h
  induction hsteps with
  | refl => exact standard_create directory process now root
  | tail _ hlast ih => exact hlast.standard ih

end Database

namespace DatabaseM
open Database
variable {α κ : Type}

/-- The state in which an action leaves a reachable database is reachable. -/
theorem reachable_run {act : DatabaseM α} (h : Moves Step act) {db : Database} (hdb : db.Reachable) :
    (act.run db).2.Reachable := by
  obtain ⟨directory, process, now, root, hsteps⟩ := hdb
  exact ⟨directory, process, now, root, hsteps.trans (h db)⟩

/-! ## Actions -/

theorem moves_onShelf {act : ShelfM α} (h : Moves Shelf.Step act) : Moves Step (onShelf act) := by
  intro db
  rw [run_onShelf]
  have hmoves := h db.shelf
  generalize (act.run db.shelf).2 = s' at hmoves ⊢
  induction hmoves with
  | refl => exact .refl
  | @tail s₁ s₂ _ hlast ih =>
    have hstep : Step { db with shelf := s₁ } { db with shelf := s₂ } := .shelf hlast
    exact ih.tail hstep

theorem moves_tryCatch {act : DatabaseM α} {handler : Error → DatabaseM α} (h : Moves Step act)
    (hhandler : ∀ e, Moves Step (handler e)) : Moves Step (tryCatch act handler) := by
  intro db
  have hact := h db
  cases hrun : act.run db with
  | mk result db' =>
    rw [hrun] at hact
    cases result with
    | ok a => rw [run_tryCatch_of_ok hrun]; exact hact
    | error e => rw [run_tryCatch_of_error hrun]; exact hact.trans (hhandler e db')

theorem moves_opened : Moves Step opened := by
  refine .get_bind fun db => Moves.bind ?_ (fun _ => moves_onShelf (ShelfM.moves_openTables _)) db
  unfold check
  split
  · exact .pure _
  · exact .throw _

theorem moves_execute (sql : String) (params : Query.Params) : Moves Step (execute sql params) :=
  .get_bind fun db => moves_onShelf (Query.moves_executeText db.now sql params) db

theorem moves_executePrepared (sql : String) (params : Query.Params) :
    Moves Step (executePrepared sql params) :=
  .get_bind fun db => moves_onShelf (Query.moves_executePrepared db.now sql params) db

theorem moves_cached? (ns : Namespace) (key : String) : Moves Step (cached? ns key) :=
  fun _ => .single (.find ns key)

theorem moves_cache (ns : Namespace) (key : String) (value : Json) :
    Moves Step (cache ns key value) := fun _ => .single (.keep ns key value)

theorem moves_lookup (ns : Namespace) (key : String) {load : DatabaseM Json}
    (h : Moves Step load) : Moves Step (lookup ns key load) := by
  refine .bind (moves_cached? ns key) fun found => ?_
  cases found with
  | some value => exact .pure _
  | none => exact .bind h fun value => .bind (moves_cache ns key value) fun _ => .pure _

theorem moves_cachedAll (ns : Namespace) (name : κ → String) (keys : List κ) :
    Moves Step (cachedAll ns name keys) := by
  induction keys with
  | nil => exact .pure _
  | cons key keys ih => exact .bind (moves_cached? ns _) fun _ => .bind ih fun _ => .pure _

theorem moves_loadMissing (ns : Namespace) (name : κ → String) {load : κ → DatabaseM Json}
    (h : ∀ key, Moves Step (load key)) (found : List (κ × Option Json)) :
    Moves Step (loadMissing ns name load found) := by
  induction found with
  | nil => exact .pure _
  | cons entry found ih =>
    obtain ⟨key, value⟩ := entry
    cases value with
    | some value => exact .bind ih fun _ => .pure _
    | none =>
      exact .bind (h key) fun value => .bind (moves_cache ns _ value) fun _ =>
        .bind ih fun _ => .pure _

theorem moves_lookupAll [BEq κ] (ns : Namespace) (name : κ → String) (keys : List κ)
    {load : κ → DatabaseM Json} (h : ∀ key, Moves Step (load key)) :
    Moves Step (lookupAll ns name keys load) :=
  .bind (moves_cachedAll ns name _) fun _ => moves_loadMissing ns name h _

theorem moves_record? (name table key : String) : Moves Step (record? name table key) := by
  have hfind : Moves Step (cachedRecord? name) := fun _ => .single (.findRecord name)
  refine .bind hfind fun found => ?_
  cases found with
  | some value => exact .pure _
  | none =>
    refine .bind (moves_onShelf (ShelfM.moves_read _)) fun stored => ?_
    cases stored with
    | none => exact .pure _
    | some r =>
      have hkeep : Moves Step (cacheRecord name (.object r)) := fun _ => .single (.keepRecord name _)
      exact .bind hkeep fun _ => .pure _

theorem moves_invalidate (i : Invalidation) : Moves Step (invalidate i) := by
  intro db
  have hdrop : Step db { db with caches := db.caches.invalidate i.space i.key } := .drop _ _
  rw [run_invalidate]
  cases i.recordName? with
  | none => exact .single hdrop
  | some name => exact .tail (.single hdrop) (.dropRecord name)

theorem moves_invalidateAll (stale : List Invalidation) : Moves Step (invalidateAll stale) := by
  induction stale with
  | nil => exact .pure _
  | cons i stale ih => exact .bind (moves_invalidate i) fun _ => ih

theorem moves_executeWrite (sql : String) (params : Query.Params) (stale : List Invalidation) :
    Moves Step (executeWrite sql params stale) :=
  .bind (moves_execute sql params) fun _ => .bind (moves_invalidateAll stale) fun _ => .pure _

/-! ## Lookups -/

theorem moves_roleValue (conference user : Int64) : Moves Step (roleValue conference user) := by
  have hload : Moves Step (loadRole conference user) :=
    moves_tryCatch (.bind (moves_record? _ _ _) fun _ => .pure _) fun _ => .pure _
  exact .bind hload fun _ => .pure _

theorem moves_userRole (conference user : Int64) : Moves Step (userRole conference user) :=
  .bind (moves_lookup _ _ (moves_roleValue conference user)) fun _ => .pure _

theorem moves_userRoles (conference : Int64) (users : List Int64) :
    Moves Step (userRoles conference users) :=
  .bind (moves_lookupAll _ _ users (moves_roleValue conference)) fun _ => .pure _

theorem moves_userNickname (peer user : Int64) : Moves Step (userNickname peer user) :=
  .bind (moves_lookup _ _ (.bind (moves_onShelf (ShelfM.moves_read _)) fun _ => .pure _))
    fun _ => .pure _

theorem moves_banList (peer : Int64) : Moves Step (banList peer) :=
  .bind (moves_lookup _ _ (.bind (moves_execute _ _) fun _ =>
    .bind (moves_onShelf (ShelfM.moves_read _)) fun _ => .pure _)) fun _ => .pure _

theorem moves_chatSettings (peer : Int64) : Moves Step (chatSettings peer) :=
  .bind (moves_lookup _ _ (.bind (moves_record? _ _ _) fun _ => .pure _)) fun _ => .pure _

theorem moves_vipStatus (user : Int64) : Moves Step (vipStatus user) := by
  have hload : Moves Step (storedVip user) := by
    refine .bind (moves_onShelf (ShelfM.moves_read _)) fun found => ?_
    cases found <;> exact .pure _
  have hremove : Moves Step (removeVip user) :=
    .bind (.bind (moves_onShelf (ShelfM.moves_remove _ _)) fun _ => .pure _) fun _ =>
      moves_invalidate _
  refine .bind (moves_lookup _ _ hload) fun value => .ite (.pure _) ?_
  cases VipGrant.ofJson? value with
  | none => exact .throw _
  | some grant =>
    exact .get_bind fun db => Moves.ite (.bind hremove fun _ => .pure _) (.pure _) db

end DatabaseM

end RecordShelf

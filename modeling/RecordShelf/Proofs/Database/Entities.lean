import RecordShelf.Database.Chats
import RecordShelf.Database.Nicknames
import RecordShelf.Proofs.Cache.Keys
import RecordShelf.Proofs.Database.Lookup

/-!
# Entities in the caches

An entity is told by its namespace and by one number or two. The text of a number has no underscore,
so different entities have different keys; the names in the cache of records begin differently for
roles and for settings, so no two entities share a record there. To drop an entity takes away what
the two caches hold for it and leaves what they hold for all others.
-/

namespace RecordShelf

/-- What tells an entity from the others of its namespace. -/
inductive EntityId where
  | one (n : Int64)
  | two (a b : Int64)
  deriving DecidableEq

namespace EntityId

def key : EntityId → String
  | .one n => CacheKey.ofInt n.toInt
  | .two a b => CacheKey.ofPair a.toInt b.toInt

theorem key_injective {i j : EntityId} (h : i.key = j.key) : i = j := by
  cases i with
  | one n =>
    cases j with
    | one m => rw [Int64.toInt_inj.1 (CacheKey.ofInt_injective h)]
    | two a b => exact absurd h (CacheKey.ofInt_ne_ofPair _ _ _)
  | two a b =>
    cases j with
    | one m => exact absurd h.symm (CacheKey.ofInt_ne_ofPair _ _ _)
    | two c d =>
      obtain ⟨rfl, rfl⟩ := CacheKey.ofPair_toInt_inj.1 h
      rfl

end EntityId

structure Entity where
  space : Namespace
  id : EntityId
  deriving DecidableEq

namespace Entity

/-- Where the value of an entity is cached. -/
def place (e : Entity) : Invalidation := ⟨e.space, e.id.key⟩

/-- The role of a user in a conference. -/
def role (conference user : Int64) : Entity := ⟨.userRoles, .two conference user⟩

/-- The settings of a chat. -/
def chatSettings (peer : Int64) : Entity := ⟨.chatSettings, .one peer⟩

/-- The nickname of a user in a chat. -/
def nickname (peer user : Int64) : Entity := ⟨.userNicknames, .two peer user⟩

theorem place_role (conference user : Int64) :
    (role conference user).place = Invalidation.role conference user := rfl

theorem place_chatSettings (peer : Int64) :
    (chatSettings peer).place = Invalidation.chatSettings peer := rfl

theorem place_nickname (peer user : Int64) :
    (nickname peer user).place = Invalidation.nickname peer user := rfl

theorem place_injective {e other : Entity} (h : e.place = other.place) : e = other := by
  obtain ⟨space, id⟩ := e
  obtain ⟨space', id'⟩ := other
  obtain ⟨hspace, hkey⟩ := Invalidation.mk.inj h
  obtain rfl : space = space' := hspace
  obtain rfl : id = id' := EntityId.key_injective hkey
  rfl

end Entity

/-! ## What the caches hold -/

/-- What the two caches hold at a place: a value, and the record behind it. -/
def Database.held (db : Database) (i : Invalidation) :
    Option (Stored Json) × Option (Stored Json) :=
  ((db.caches.cache i.space).entries.get? i.key,
    i.recordName?.bind fun name => db.records.entries.get? name)

/-- The caches of `db'` hold nothing for some entities and for all others what those of `db` hold;
apart from the caches the two are the same. -/
structure Database.DropsOnly (db : Database) (entities : List Entity) (db' : Database) : Prop where
  rest : db' = { db with caches := db'.caches, records := db'.records }
  dropped : ∀ e ∈ entities, db'.held e.place = (none, none)
  kept : ∀ e ∉ entities, db'.held e.place = db.held e.place

namespace DatabaseM
open Database
variable {db : Database} {i j : Invalidation}

theorem held_invalidate_self (hcaches : db.caches.Distinct) (hrecords : db.records.Distinct)
    (i : Invalidation) : ((invalidate i).run db).2.held i = (none, none) := by
  obtain ⟨caches, records, hrun, hvalue, hrecord⟩ := dropped_invalidate hcaches hrecords i
  rw [hrun]
  refine Prod.ext hvalue ?_
  cases hname : i.recordName? with
  | none => simp only [held, hname, Option.bind_none]
  | some name =>
    simp only [held, hname, Option.bind_some]
    exact hrecord name hname

theorem held_invalidate_of_ne (db : Database) (hne : j ≠ i) :
    ((invalidate i).run db).2.held j = db.held j := by
  rw [run_invalidate]
  refine Prod.ext ?_ ?_
  · by_cases hspace : j.space = i.space
    · have hkey : j.key ≠ i.key := by
        obtain ⟨space, key⟩ := j
        rintro rfl
        exact hne (congrArg (Invalidation.mk · i.key) hspace)
      simp only [held, hspace, Caches.invalidate, Caches.cache_setCache_self]
      exact Named.get?_erase_of_ne _ hkey
    · simp only [held, Caches.invalidate, Caches.cache_setCache_of_ne _ _ hspace]
  · cases hother : j.recordName? with
    | none => simp only [held, hother, Option.bind_none]
    | some other =>
      simp only [held, hother, Option.bind_some]
      cases hname : i.recordName? with
      | none => rfl
      | some name =>
        refine Named.get?_erase_of_ne _ ?_
        rintro rfl
        exact hne (Invalidation.eq_of_recordName hother hname)

theorem dropsOnly_invalidate (hcaches : db.caches.Distinct) (hrecords : db.records.Distinct)
    (e : Entity) : db.DropsOnly [e] ((invalidate e.place).run db).2 := by
  refine ⟨rfl, fun other hother => ?_, fun other hother => ?_⟩
  · obtain rfl := List.mem_singleton.1 hother
    exact held_invalidate_self hcaches hrecords _
  · refine held_invalidate_of_ne db fun hplace => hother ?_
    exact List.mem_singleton.2 (Entity.place_injective hplace)

theorem distinct_invalidate (hcaches : db.caches.Distinct) (hrecords : db.records.Distinct)
    (i : Invalidation) : ((invalidate i).run db).2.caches.Distinct ∧
      ((invalidate i).run db).2.records.Distinct := by
  rw [run_invalidate]
  refine ⟨hcaches.invalidate i.space i.key, ?_⟩
  cases i.recordName? with
  | none => exact hrecords
  | some name => exact hrecords.invalidate name

/-- One entity after another is dropped, as the writes do it. -/
theorem dropsOnly_invalidateAll (hcaches : db.caches.Distinct) (hrecords : db.records.Distinct)
    (entities : List Entity) :
    ∃ db', (invalidateAll (entities.map Entity.place)).run db = (.ok (), db') ∧
      db.DropsOnly entities db' := by
  induction entities generalizing db with
  | nil => exact ⟨db, rfl, rfl, fun e he => absurd he List.not_mem_nil, fun e _ => rfl⟩
  | cons e entities ih =>
    have hfirst := dropsOnly_invalidate hcaches hrecords e
    obtain ⟨hcaches', hrecords'⟩ := distinct_invalidate hcaches hrecords e.place
    obtain ⟨db', hrun, hothers⟩ := ih hcaches' hrecords'
    refine ⟨db', ?_, ?_, fun other hother => ?_, fun other hother => ?_⟩
    · have hrunFirst : (invalidate e.place).run db =
          (.ok (), ((invalidate e.place).run db).2) := rfl
      rw [List.map_cons, invalidateAll, run_bind_of_ok hrunFirst, hrun]
    · rw [hothers.rest, hfirst.rest]
    · by_cases hmem : other ∈ entities
      · exact hothers.dropped other hmem
      · rw [hothers.kept other hmem]
        exact hfirst.dropped other
          (List.mem_singleton.2 ((List.mem_cons.1 hother).resolve_right hmem))
    · rw [List.mem_cons, not_or] at hother
      rw [hothers.kept other hother.2]
      exact hfirst.kept other (mt List.mem_singleton.1 hother.1)

/-- Pairs of numbers have one key only if they are one pair, and no two entities have one place in
the caches. Roles and settings, and they alone, have a name in the cache of records, and no two of
them have one name there. So to drop an entity takes away its own value and its own record and
leaves what the two caches hold for every other entity, and to drop some entities takes away what
is held for them and nothing else. -/
theorem drops_own_entries (hcaches : db.caches.Distinct) (hrecords : db.records.Distinct) :
    (∀ a b c d : Int64, CacheKey.ofPair a.toInt b.toInt = CacheKey.ofPair c.toInt d.toInt ↔
      a = c ∧ b = d) ∧
    (∀ e other : Entity, e.place = other.place ↔ e = other) ∧
    (∀ e : Entity, e.place.recordName?.isSome = true ↔
      e.space = .userRoles ∨ e.space = .chatSettings) ∧
    (∀ (e other : Entity) (name : String), e.place.recordName? = some name →
      other.place.recordName? = some name → e = other) ∧
    (∀ e : Entity, ∃ db', (invalidate e.place).run db = (.ok (), db') ∧ db.DropsOnly [e] db') ∧
    ∀ entities : List Entity, ∃ db', (invalidateAll (entities.map Entity.place)).run db =
      (.ok (), db') ∧ db.DropsOnly entities db' := by
  refine ⟨fun a b c d => CacheKey.ofPair_toInt_inj,
    fun e other => ⟨Entity.place_injective, congrArg Entity.place⟩, fun e => ?_,
    fun e other name he hother => ?_, fun e => ⟨_, rfl, dropsOnly_invalidate hcaches hrecords e⟩,
    dropsOnly_invalidateAll hcaches hrecords⟩
  · obtain ⟨space, id⟩ := e
    cases space <;> simp [Entity.place, Invalidation.recordName?]
  · exact Entity.place_injective (Invalidation.eq_of_recordName he hother)

/-- The role of user 12 in conference 1 and that of user 2 in conference 11 are cached, each with
its record, and besides them the record of chat 1 and a nickname of user 12. -/
def stocked : Database :=
  ((do
    cache .userRoles "1_12" (.ofInt64 80)
    cacheRecord "role_1_12" (.object [("role_id", .ofInt64 80)])
    cache .userRoles "11_2" (.ofInt64 20)
    cacheRecord "role_11_2" (.object [("role_id", .ofInt64 20)])
    cacheRecord "settings_1" (.object [("spam", .ofInt64 1)])
    cache .userNicknames "1_12" (.string "neo") : DatabaseM Unit).run
    (.create Settings.default 1 1 none)).2

/-- One role is dropped; the other role, the settings and the nickname stay. -/
theorem drops_own_entries_stocked :
    stocked.caches.Distinct ∧ stocked.records.Distinct ∧
    (stocked.held (.role 1 12)).1.isSome = true ∧ (stocked.held (.role 1 12)).2.isSome = true ∧
    (stocked.held (.role 11 2)).1.isSome = true ∧ (stocked.held (.role 11 2)).2.isSome = true ∧
    (stocked.held (.chatSettings 1)).2.isSome = true ∧
    (stocked.held (.nickname 1 12)).1.isSome = true ∧
    ∃ db', (invalidate (.role 1 12)).run stocked = (.ok (), db') ∧
      db'.held (.role 1 12) = (none, none) ∧
      db'.held (.role 11 2) = stocked.held (.role 11 2) ∧
      db'.held (.chatSettings 1) = stocked.held (.chatSettings 1) ∧
      db'.held (.nickname 1 12) = stocked.held (.nickname 1 12) := by
  have hcaches : stocked.caches.Distinct :=
    (((Caches.distinct_create _ _).set 0 .userRoles "1_12" (.ofInt64 80)).set 0 .userRoles "11_2"
      (.ofInt64 20)).set 0 .userNicknames "1_12" (.string "neo")
  have hrecords : stocked.records.Distinct := by
    unfold TimedCache.Distinct
    decide +kernel
  obtain ⟨-, -, -, -, hone, -⟩ := drops_own_entries hcaches hrecords
  obtain ⟨db', hrun, hdrops⟩ := hone (.role 1 12)
  have hgone := hdrops.dropped (.role 1 12) List.mem_cons_self
  have hrole := hdrops.kept (.role 11 2) (by decide)
  have hsettings := hdrops.kept (.chatSettings 1) (by decide)
  have hnickname := hdrops.kept (.nickname 1 12) (by decide)
  rw [Entity.place_role] at hrun hgone hrole
  rw [Entity.place_chatSettings] at hsettings
  rw [Entity.place_nickname] at hnickname
  exact ⟨hcaches, hrecords, by decide +kernel, by decide +kernel, by decide +kernel,
    by decide +kernel, by decide +kernel, by decide +kernel, db', hrun, hgone, hrole, hsettings,
    hnickname⟩

end DatabaseM

end RecordShelf

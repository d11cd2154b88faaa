import RecordShelf.Database.Vip
import RecordShelf.Proofs.Database.Faithful
import RecordShelf.Proofs.Shelf.Content
import RecordShelf.Proofs.Time.WrittenMoments

/-!
# Grants that are removed

A look at the grant of a user goes by the fresh cached value, if there is one, and by the stored
record otherwise. It removes the stored record exactly when what it goes by has expired. So a record
that was renewed behind the cache is removed in place of the one that was cached; where the cached
value is that of the stored record, only what has expired is removed.
-/

namespace RecordShelf

namespace VipGrant

theorem writable_expiry (r : Record) : ∀ t ∈ (ofRecord r).expiry, t.Writable := by
  intro t ht
  obtain ⟨text, -, hread⟩ := Option.bind_eq_some_iff.1 ht
  exact Timestamp.writable_of_read? hread

theorem expiry?_expiryJson {date : Option Timestamp} (h : ∀ t ∈ date, t.Writable) :
    expiry? (some (expiryJson date)) = some date := by
  cases date with
  | none => rfl
  | some t =>
    rw [expiryJson, expiry?, Timestamp.readRelaxed?_write (h t rfl)]
    rfl

/-- The grant of a record is read back from the value that it is cached as. -/
theorem ofJson?_ofRecord (r : Record) : ofJson? (ofRecord r).toJson = some (ofRecord r) := by
  have hexpiry := expiry?_expiryJson (writable_expiry r)
  have hgranted : (some ((ofRecord r).grantedBy.getD .null)).filter (fun v => !v.isNull) =
      (ofRecord r).grantedBy := by
    have hnull : (ofRecord r).grantedBy = (r.get? "granted_by").filter fun v => !v.isNull := rfl
    rw [hnull]
    cases r.get? "granted_by" with
    | none => rfl
    | some v => cases v <;> rfl
  have hparts : ofJson? (ofRecord r).toJson = ofParts? (some (.bool (ofRecord r).isVip))
      (some (expiryJson (ofRecord r).expiry)) (some ((ofRecord r).grantedBy.getD .null))
      (some (.bool (ofRecord r).isPermanent)) := rfl
  rw [hparts, ofParts?, hexpiry, hgranted]
  rfl

/-- A grant expires when it is not for good and its date is past. -/
theorem isExpired_iff {g : VipGrant} {now : Timestamp} :
    g.isExpired now = true ↔ g.isPermanent = false ∧ ∃ t, g.expiry = some t ∧ t.before now = true := by
  rw [isExpired, Bool.and_eq_true, Bool.not_eq_true', Option.any_eq_true]

/-- The value that is cached for a stored record, null if there is none. -/
def valueOf : Option Record → Json
  | some r => (ofRecord r).toJson
  | none => .null

end VipGrant

/-- Where the grant of a user is stored. -/
def vipPlace (user : Int64) : Place := (DatabaseM.vipTable, idText user)

namespace Database

/-- The fresh cached grant of a user. -/
def freshVip (db : Database) (user : Int64) : Option Json :=
  (db.caches.get db.clock .vipStatuses (Invalidation.vip user).key).1

/-- What a look at the grant of a user goes by. -/
def shownVip (db : Database) (user : Int64) : Except Error Json :=
  match db.freshVip user with
  | some v => .ok v
  | none => (db.shelf.get DatabaseM.vipTable (idText user)).map VipGrant.valueOf

/-- What a look at the grant of a user goes by is a grant that has expired. -/
def ShowsExpired (db : Database) (user : Int64) : Prop :=
  ∃ v g, db.shownVip user = .ok v ∧ VipGrant.ofJson? v = some g ∧ g.isExpired (.ofMillis db.now) = true

end Database

namespace DatabaseM
open Database
variable {db : Database} {user : Int64}

theorem run_storedVip (db : Database) (user : Int64) : (storedVip user).run db =
    ((db.shelf.get vipTable (idText user)).map VipGrant.valueOf, db) := by
  have hget : (onShelf (ShelfM.get vipTable (idText user))).run db =
      (db.shelf.get vipTable (idText user), db) := by
    rw [run_onShelf, ShelfM.get, ShelfM.run_read]
  rw [storedVip]
  cases hread : db.shelf.get vipTable (idText user) with
  | error e =>
    rw [hread] at hget
    rw [run_bind_of_error hget]
    rfl
  | ok r =>
    rw [hread] at hget
    rw [run_bind_of_ok hget]
    cases r <;> rfl

/-- A lookup of a grant changes nothing but the caches. -/
theorem run_lookupVip (db : Database) (user : Int64) : ∃ caches,
    (lookup .vipStatuses (Invalidation.vip user).key (storedVip user)).run db =
      (db.shownVip user, { db with caches := caches }) := by
  have hcached := run_cached? .vipStatuses (Invalidation.vip user).key db
  rw [lookup, run_bind_of_ok hcached, shownVip]
  have hfresh : (db.caches.get db.clock .vipStatuses (Invalidation.vip user).key).1 =
    db.freshVip user := rfl
  rw [hfresh]
  cases db.freshVip user with
  | some v => exact ⟨_, rfl⟩
  | none =>
    have hload := run_storedVip { db with
      caches := (db.caches.get db.clock .vipStatuses (Invalidation.vip user).key).2 } user
    dsimp only at hload ⊢
    cases hread : db.shelf.get vipTable (idText user) with
    | error e =>
      rw [hread] at hload
      exact ⟨_, run_bind_of_error hload⟩
    | ok r =>
      rw [hread] at hload
      have hloaded : (Except.ok r).map VipGrant.valueOf =
        (Except.ok (VipGrant.valueOf r) : Except Error Json) := rfl
      rw [hloaded] at hload
      rw [run_bind_of_ok hload]
      exact ⟨_, rfl⟩

theorem run_discard_of_ok {α : Type} {act : DatabaseM α} {db db' : Database} {a : α}
    (h : act.run db = (.ok a, db')) : (discard act).run db = (.ok (), db') := by
  have hbind : discard act = (do let _ ← act; pure ()) := map_eq_pure_bind _ act
  rw [hbind, run_bind_of_ok h]
  rfl

theorem run_discard_of_error {α : Type} {act : DatabaseM α} {db db' : Database} {e : Error}
    (h : act.run db = (.error e, db')) : (discard act).run db = (.error e, db') := by
  have hbind : discard act = (do let _ ← act; pure ()) := map_eq_pure_bind _ act
  rw [hbind, run_bind_of_error h]

theorem run_removeVip {shelf : Shelf} {removed : Bool}
    (h : (ShelfM.remove vipTable (idText user)).run db.shelf = (.ok removed, shelf)) :
    ∃ db', (removeVip user).run db = (.ok (), db') ∧ db'.shelf = shelf := by
  have hrun := run_onShelf (ShelfM.remove vipTable (idText user)) db
  rw [h] at hrun
  rw [removeVip, run_bind_of_ok (run_discard_of_ok hrun), run_invalidate]
  exact ⟨_, rfl, rfl⟩

theorem shelf_removeVip (db : Database) (user : Int64) : ((removeVip user).run db).2.shelf =
    ((ShelfM.remove vipTable (idText user)).run db.shelf).2 := by
  cases hremove : (ShelfM.remove vipTable (idText user)).run db.shelf with
  | mk outcome shelf =>
    cases outcome with
    | ok removed =>
      obtain ⟨db', hrun, hshelf⟩ := run_removeVip hremove
      rw [hrun, hshelf]
    | error e =>
      have hrun := run_onShelf (ShelfM.remove vipTable (idText user)) db
      rw [hremove] at hrun
      rw [removeVip, run_bind_of_error (run_discard_of_error hrun)]

theorem isNull_of_ofJson? {v : Json} {g : VipGrant} (h : VipGrant.ofJson? v = some g) :
    v.isNull = false := by
  cases v with
  | null => exact nomatch h
  | bool | number | string | array | object => rfl

/-- What happens to a grant that has expired is its removal. -/
theorem vipStatus_of_showsExpired (h : db.ShowsExpired user) : ∃ caches, (vipStatus user).run db =
    (do removeVip user; return none : DatabaseM (Option VipGrant)).run { db with caches := caches } := by
  obtain ⟨v, g, hshown, hgrant, hexpired⟩ := h
  obtain ⟨caches, hlookup⟩ := run_lookupVip db user
  rw [hshown] at hlookup
  have hnow := run_getThe { db with caches := caches }
  refine ⟨caches, ?_⟩
  rw [vipStatus, run_bind_of_ok hlookup, isNull_of_ofJson? hgrant, if_neg Bool.false_ne_true]
  simp only [hgrant]
  rw [run_bind_of_ok hnow, if_pos hexpired]

theorem shelf_of_not_showsExpired (h : ¬db.ShowsExpired user) :
    ((vipStatus user).run db).2.shelf = db.shelf := by
  obtain ⟨caches, hlookup⟩ := run_lookupVip db user
  have hnow := run_getThe { db with caches := caches }
  cases hshown : db.shownVip user with
  | error e =>
    rw [hshown] at hlookup
    rw [vipStatus, run_bind_of_error hlookup]
  | ok v =>
    rw [hshown] at hlookup
    rw [vipStatus, run_bind_of_ok hlookup]
    by_cases hnull : v.isNull = true
    · rw [if_pos hnull]
      rfl
    · rw [if_neg hnull]
      cases hgrant : VipGrant.ofJson? v with
      | none => rfl
      | some g =>
        have hkept : ¬g.isExpired (.ofMillis db.now) = true := fun hexpired =>
          h ⟨v, g, hshown, hgrant, hexpired⟩
        dsimp only
        rw [run_bind_of_ok hnow, if_neg hkept]
        rfl

/-- Where there is no file nothing is removed. -/
theorem shelf_of_no_vip (h : db.shelf.content (vipPlace user) = none) :
    ((vipStatus user).run db).2.shelf = db.shelf := by
  by_cases hexpired : db.ShowsExpired user
  · obtain ⟨caches, hrun⟩ := vipStatus_of_showsExpired hexpired
    have hkept := shelf_removeVip { db with caches := caches } user
    rw [ShelfM.shelf_of_remove_none h] at hkept
    rw [hrun]
    cases hremove : (removeVip user).run { db with caches := caches } with
    | mk outcome db' =>
      rw [hremove] at hkept
      cases outcome with
      | ok _ =>
        rw [run_bind_of_ok hremove]
        exact hkept
      | error e =>
        rw [run_bind_of_error hremove]
        exact hkept
  · exact shelf_of_not_showsExpired hexpired

/-- The file of a grant that has expired is removed, and the grant is none. -/
theorem run_of_showsExpired (hs : db.shelf.Wellformed) {bytes : ByteArray}
    (hfile : db.shelf.content (vipPlace user) = some bytes) (h : db.ShowsExpired user) :
    ∃ db', (vipStatus user).run db = (.ok none, db') ∧
      db'.shelf.content (vipPlace user) = none ∧
      ∀ place, place ≠ vipPlace user → db'.shelf.content place = db.shelf.content place := by
  obtain ⟨caches, hrun⟩ := vipStatus_of_showsExpired h
  obtain ⟨shelf, hremove⟩ := ShelfM.run_remove_of_content (Names.isKey_decimalInt user)
    (by decide : Names.isTable vipTable = true) hfile
  obtain ⟨hgone, hothers⟩ := ShelfM.content_of_remove hs hremove
  obtain ⟨db', hremoved, rfl⟩ := @run_removeVip { db with caches := caches } user _ _ hremove
  refine ⟨db', ?_, hgone, hothers⟩
  rw [hrun, run_bind_of_ok hremoved]
  rfl

/-- A look at the grant of a user removes the file of its record. -/
def Removed (db : Database) (user : Int64) : Prop :=
  db.shelf.content (vipPlace user) ≠ none ∧
    ((vipStatus user).run db).2.shelf.content (vipPlace user) = none

theorem removed_iff (hs : db.shelf.Wellformed) (user : Int64) :
    Removed db user ↔ db.shelf.content (vipPlace user) ≠ none ∧ db.ShowsExpired user := by
  constructor
  · rintro ⟨hfile, hgone⟩
    refine ⟨hfile, ?_⟩
    by_contra hkept
    rw [shelf_of_not_showsExpired hkept] at hgone
    exact hfile hgone
  · rintro ⟨hfile, hexpired⟩
    obtain ⟨bytes, hbytes⟩ := Option.ne_none_iff_exists'.1 hfile
    obtain ⟨db', hrun, hgone, -⟩ := run_of_showsExpired hs hbytes hexpired
    refine ⟨hfile, ?_⟩
    rw [hrun]
    exact hgone

/-- The record at the place of a user's grant is a grant that is not for good and whose date is
past. -/
def StoredExpired (db : Database) (user : Int64) : Prop :=
  ∃ r t, db.shelf.record (vipPlace user) = some r ∧ (VipGrant.ofRecord r).isPermanent = false ∧
    (VipGrant.ofRecord r).expiry = some t ∧ t.before (.ofMillis db.now) = true

/-- The fresh cached value, if there is one, is that of the stored record. -/
def FreshAgrees (db : Database) (user : Int64) : Prop :=
  ∀ v, db.freshVip user = some v → v = VipGrant.valueOf (db.shelf.record (vipPlace user))

/-- What is shown then is the value of the stored record, unless that cannot be read. -/
theorem shownVip_of_freshAgrees (hfresh : FreshAgrees db user) {v : Json}
    (h : db.shownVip user = .ok v) : v = VipGrant.valueOf (db.shelf.record (vipPlace user)) := by
  rw [shownVip] at h
  cases hcached : db.freshVip user with
  | some w =>
    rw [hcached] at h
    rw [← Except.ok.inj h]
    exact hfresh w hcached
  | none =>
    rw [hcached] at h
    cases hread : db.shelf.get vipTable (idText user) with
    | error e =>
      rw [hread] at h
      exact nomatch h
    | ok r =>
      rw [hread] at h
      have hrecord : db.shelf.record (vipPlace user) = r := Shelf.record_of_get hread
      rw [hrecord]
      exact (Except.ok.inj h).symm

theorem shownVip_of_record (hfresh : FreshAgrees db user) {r : Record}
    (h : db.shelf.record (vipPlace user) = some r) :
    db.shownVip user = .ok (VipGrant.ofRecord r).toJson := by
  rw [shownVip]
  cases hcached : db.freshVip user with
  | some w =>
    have hvalue := hfresh w hcached
    rw [h] at hvalue
    exact congrArg Except.ok hvalue
  | none =>
    obtain ⟨bytes, hbytes, hdecode⟩ := Option.bind_eq_some_iff.1 h
    have hget := Shelf.get_of_content (Names.isKey_decimalInt user)
      (by decide : Names.isTable vipTable = true) hbytes
    have hread : db.shelf.get vipTable (idText user) = .ok (some r) := by
      rw [← hdecode]
      exact hget
    simp only [hread]
    rfl

theorem showsExpired_iff_stored (hfresh : FreshAgrees db user) :
    db.ShowsExpired user ↔ StoredExpired db user := by
  constructor
  · rintro ⟨v, g, hshown, hgrant, hexpired⟩
    have hvalue := shownVip_of_freshAgrees hfresh hshown
    cases hrecord : db.shelf.record (vipPlace user) with
    | none =>
      rw [hvalue, hrecord] at hgrant
      exact nomatch hgrant
    | some r =>
      have hread : VipGrant.ofJson? v = some (VipGrant.ofRecord r) := by
        rw [hvalue, hrecord]
        exact VipGrant.ofJson?_ofRecord r
      obtain rfl := Option.some.inj (hread.symm.trans hgrant)
      obtain ⟨hpermanent, t, hexpiry, hbefore⟩ := VipGrant.isExpired_iff.1 hexpired
      exact ⟨r, t, hrecord, hpermanent, hexpiry, hbefore⟩
  · rintro ⟨r, t, hrecord, hpermanent, hexpiry, hbefore⟩
    exact ⟨_, VipGrant.ofRecord r, shownVip_of_record hfresh hrecord, VipGrant.ofJson?_ofRecord r,
      VipGrant.isExpired_iff.2 ⟨hpermanent, t, hexpiry, hbefore⟩⟩

theorem StoredExpired.content_ne_none (h : StoredExpired db user) :
    db.shelf.content (vipPlace user) ≠ none := by
  obtain ⟨r, t, hrecord, -⟩ := h
  obtain ⟨bytes, hbytes, -⟩ := Option.bind_eq_some_iff.1 hrecord
  rw [hbytes]
  exact Option.some_ne_none bytes

/-- A look at the grant of a user removes the file of its record exactly when what it goes by is a
grant that has expired; then it gives no grant and changes no other file, and else it changes no file
at all. Where the cached value, if there is one, is that of the stored record, the file is removed
exactly when the stored record has expired. -/
theorem vip_removed_iff (hs : db.shelf.Wellformed) (user : Int64) :
    (Removed db user ↔ db.shelf.content (vipPlace user) ≠ none ∧ db.ShowsExpired user) ∧
    (Removed db user → ∃ db', (vipStatus user).run db = (.ok none, db') ∧
      ∀ place, place ≠ vipPlace user → db'.shelf.content place = db.shelf.content place) ∧
    (¬Removed db user → ((vipStatus user).run db).2.shelf = db.shelf) ∧
    (FreshAgrees db user → (Removed db user ↔ StoredExpired db user)) := by
  have hiff := removed_iff hs user
  refine ⟨hiff, fun hremoved => ?_, fun hkept => ?_, fun hfresh => ?_⟩
  · obtain ⟨hfile, hexpired⟩ := hiff.1 hremoved
    obtain ⟨bytes, hbytes⟩ := Option.ne_none_iff_exists'.1 hfile
    obtain ⟨db', hrun, -, hothers⟩ := run_of_showsExpired hs hbytes hexpired
    exact ⟨db', hrun, hothers⟩
  · by_cases hfile : db.shelf.content (vipPlace user) = none
    · exact shelf_of_no_vip hfile
    · exact shelf_of_not_showsExpired fun hexpired => hkept (hiff.2 ⟨hfile, hexpired⟩)
  · rw [hiff, showsExpired_iff_stored hfresh]
    exact ⟨fun h => h.2, fun h => ⟨h.content_ne_none, h⟩⟩

/-- A grant up to the first of January 2030. -/
def grantRecord : Record :=
  [("user_id", .ofInt64 7), ("expiry_date", .string "2030-01-01T00:00:00Z")]

def grants : Node :=
  .directory [("vip_users", .directory [("7.json", .file (RecordFile.encode grantRecord))])]

/-- Five minutes before the end of the grant. -/
def lastMinutes : Database := .create Settings.default 1 1893455700000 (some grants)

/-- Five minutes after the end of the grant. -/
def afterwards : Database := .create Settings.default 1 1893456300000 (some grants)

theorem wellformed_grants : afterwards.shelf.Wellformed := by
  intro t entries h
  obtain ⟨tables, hroot, hget⟩ := Shelf.tableEntries_eq_ok_iff.1 h
  cases hroot
  by_cases ht : "vip_users" = t
  · simp only [Named.get?, ht, if_true] at hget
    cases hget
    exact ⟨by decide, by decide⟩
  · simp [Named.get?, ht] at hget

theorem record_afterwards : afterwards.shelf.record (vipPlace 7) = some grantRecord := by
  have hstorable : Storable grantRecord := ⟨⟨by decide, trivial, trivial, trivial⟩, by decide⟩
  have hentries : afterwards.shelf.entriesOf vipTable =
    [("7.json", .file (RecordFile.encode grantRecord))] := rfl
  have hname : fileName (idText 7) = "7.json" := by decide
  have hget : Named.get? [("7.json", Node.file (RecordFile.encode grantRecord))] "7.json" =
    some (.file (RecordFile.encode grantRecord)) := if_pos rfl
  have hcontent : afterwards.shelf.content (vipPlace 7) = some (RecordFile.encode grantRecord) := by
    rw [vipPlace, Shelf.content_eq, if_pos (fits_idText 7), hentries, hname, hget]
  rw [Shelf.record, hcontent, Option.bind_some, RecordFile.decode_encode hstorable]

theorem vip_removed_afterwards : afterwards.freshVip 7 = none ∧ StoredExpired afterwards 7 ∧
    Removed afterwards 7 := by
  have hfresh : afterwards.freshVip 7 = none := rfl
  have hstored : StoredExpired afterwards 7 :=
    ⟨grantRecord, ⟨1893456000, 0⟩, record_afterwards, by decide +kernel, by decide +kernel,
      by decide +kernel⟩
  have hagrees : FreshAgrees afterwards 7 := fun v hv => absurd (hfresh.symm.trans hv) (by simp)
  exact ⟨hfresh, hstored, ((vip_removed_iff wellformed_grants 7).2.2.2 hagrees).2 hstored⟩

/-- The database of the last minutes, once the grant was looked at and then made permanent by a
statement, when ten minutes have passed. -/
def renewed : Database := ((do
  discard <| vipStatus 7
  discard <| execute "UPDATE vip_users SET is_permanent = 1 WHERE user_id = 7" .none
  modifyThe Database fun db => { db.advance 600000 with now := db.now + 600000 } :
    DatabaseM Unit).run lastMinutes).2

/-- A grant that is for good is removed, since its cached copy has expired. -/
theorem vip_removed_for_good : Removed renewed 7 ∧ ¬StoredExpired renewed 7 := by
  have hgone : (renewed.shelf.content (vipPlace 7)).isSome = true ∧
      ((vipStatus 7).run renewed).2.shelf.content (vipPlace 7) = none := by
    decide +kernel
  have hpermanent : (renewed.shelf.record (vipPlace 7)).map
      (fun r => (VipGrant.ofRecord r).isPermanent) = some true := by
    decide +kernel
  refine ⟨⟨Option.isSome_iff_ne_none.1 hgone.1, hgone.2⟩, ?_⟩
  rintro ⟨r, t, hrecord, hfalse, -⟩
  rw [hrecord, Option.map_some, hfalse] at hpermanent
  exact absurd hpermanent (by decide)

end DatabaseM

end RecordShelf

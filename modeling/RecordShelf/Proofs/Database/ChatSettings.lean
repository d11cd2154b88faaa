import RecordShelf.Proofs.Database.Faithful
import RecordShelf.Proofs.Query.Changes

/-!
# Changed settings of chats

An update writes the changes over the stored record of the chat, and keeps them alone if there is no
record: the defaults are only shown, never stored. The record goes under the key that the changes
themselves give, which is that of the chat unless they carry the number of something else. As long as
every update is kept under the number of its chat, the settings that are looked up are those of the
shelf, whether they are cached or not.
-/

namespace RecordShelf
open DatabaseM

/-- What an update of a chat's settings writes. -/
def chatRecord (peer : Int64) (changes : Record) : Record :=
  changes.insert "conference_id" (.ofInt64 peer)

/-- The changes of a chat's settings are kept under the number of the chat. -/
def KeptUnder (peer : Int64) (changes : Record) : Prop :=
  ∃ identity, Settings.default.rules.identity.resolve "conference" (chatRecord peer changes) =
    some identity ∧ identity.key = idText peer

theorem isEmpty_chatRecord (peer : Int64) (changes : Record) :
    (chatRecord peer changes).isEmpty = false := by
  have hget : (chatRecord peer changes).get? "conference_id" = some (.ofInt64 peer) :=
    Named.get?_insert_self _ _ _
  cases h : chatRecord peer changes with
  | nil =>
    rw [h] at hget
    exact nomatch hget
  | cons field r => rfl

namespace Shelf

/-- The settings of a chat that the shelf gives, the defaults if it has no record of the chat. -/
def settingsAt (s : Shelf) (peer : Int64) : Except Error Record :=
  (s.get "conference" (idText peer)).map fun r => r.getD defaultChatSettings

/-- The value is the one that is loaded under this name. -/
def LoadsSettings (s : Shelf) : Namespace → String → Json → Prop
  | .chatSettings, key, v => ∀ peer, key = (Invalidation.chatSettings peer).key →
      (s.settingsAt peer).map Json.object = .ok v
  | _, _, _ => True

/-- The value is the record that is stored for the chat of this name. -/
def LoadsChat (s : Shelf) (name : String) (v : Json) : Prop :=
  ∀ peer, (Invalidation.chatSettings peer).recordName? = some name →
    ∃ r, s.get "conference" (idText peer) = .ok (some r) ∧ v = .object r

end Shelf

/-- The entries that are right for settings of chats. -/
abbrev chatEntries : Cachable := ⟨Shelf.LoadsSettings, Shelf.LoadsChat⟩

theorem Invalidation.chatSettings_injective {a b : Int64}
    (h : (chatSettings a).key = (chatSettings b).key) : a = b :=
  Int64.toInt_inj.1 (CacheKey.ofInt_injective h)

theorem Invalidation.chatName_injective {a b : Int64}
    (h : (chatSettings a).recordName? = (chatSettings b).recordName?) : a = b :=
  chatSettings_injective (congrArg key (eq_of_recordName rfl h.symm))

namespace Shelf
variable {s s' : Shelf} {place : Option (String × String)} {peer : Int64}

theorem loadsSettings_iff {v : Json} :
    s.LoadsSettings .chatSettings (Invalidation.chatSettings peer).key v ↔
      (s.settingsAt peer).map Json.object = .ok v := by
  constructor
  · intro h
    exact h peer rfl
  · intro h other hkey
    obtain rfl := Invalidation.chatSettings_injective hkey
    exact h

theorem settingsAt_of_agreesOff (hs : s.AgreesOff s' place)
    (hplace : place ≠ some ("conference", idText peer)) : s'.settingsAt peer = s.settingsAt peer := by
  rw [settingsAt, hs _ _ (fits_idText peer) hplace, settingsAt]

/-- A change of the record of one chat leaves right what is not made from that record. -/
theorem staysOff_chats (hs : s.AgreesOff s' place) {i : Option Invalidation}
    (hi : ∀ peer, place = some ("conference", idText peer) →
      some (Invalidation.chatSettings peer) = i) : chatEntries.StaysOff s s' i := by
  constructor
  · intro ns key v hne
    cases ns with
    | chatSettings =>
      intro h peer hkey
      have hplace : place ≠ some ("conference", idText peer) := by
        intro hplace
        apply hne
        rw [← hi peer hplace, hkey]
        rfl
      rw [settingsAt_of_agreesOff hs hplace]
      exact h peer hkey
    | _ => exact fun _ => trivial
  · intro name v hname h peer hpeer
    have hplace : place ≠ some ("conference", idText peer) := fun hplace =>
      hname _ (hi peer hplace).symm hpeer
    rw [hs _ _ (fits_idText peer) hplace]
    exact h peer hpeer

end Shelf

namespace DatabaseM
open Database
variable {db db' : Database} {peer : Int64} {changes : Record}

/-- In a database with right caches the settings of a chat are those of the shelf. -/
theorem reads_chatSettings (peer : Int64) :
    ReadsBy chatEntries (chatSettings peer) fun s => s.settingsAt peer := by
  obtain ⟨name, hname⟩ : ∃ name, (Invalidation.chatSettings peer).recordName? = some name :=
    ⟨_, rfl⟩
  have hrecord (s : Shelf) (v : Json) : chatEntries.record s name v ↔
      ∃ r, s.get "conference" (idText peer) = .ok (some r) ∧ v = .object r := by
    constructor
    · intro h
      exact h peer hname
    · intro h other hsame
      obtain rfl := Invalidation.chatName_injective (hsame.trans hname.symm)
      exact h
  have hstored := (readsBy_record? hrecord).map fun r => r.getD (.object defaultChatSettings)
  have hvalue (s : Shelf) : ((s.get "conference" (idText peer)).map (·.map Json.object)).map
      (fun r => r.getD (.object defaultChatSettings)) = (s.settingsAt peer).map Json.object := by
    unfold Shelf.settingsAt
    cases s.get "conference" (idText peer) with
    | error e => rfl
    | ok r => cases r <;> rfl
  have hright (s : Shelf) (v : Json) :
      chatEntries.value s .chatSettings (Invalidation.chatSettings peer).key v ↔
        ((s.get "conference" (idText peer)).map (·.map Json.object)).map
          (fun r => r.getD (.object defaultChatSettings)) = .ok v := by
    rw [hvalue]
    exact Shelf.loadsSettings_iff
  have hlookup := (readsBy_lookup hstored hright).map fun value : Json =>
    value.record?.getD defaultChatSettings
  rw [← Option.some.inj hname] at hlookup
  apply hlookup.congr
  intro s
  rw [hvalue]
  cases s.settingsAt peer <;> rfl

/-! ## Updates -/

def chatText : String :=
  "INSERT INTO conference SET ? ON DUPLICATE KEY UPDATE conference_id = conference_id"

theorem parse_chatText : Sql.parse chatText = .ok (.insert ⟨"conference", .object, true⟩) := by
  decide +kernel

/-- The statement of an update stores the record under the number of the chat. -/
theorem run_chatText (hdb : db.Standard) {identity : Identity}
    (hresolve : Settings.default.rules.identity.resolve "conference" (chatRecord peer changes) =
      some identity) :
    (Query.executeText db.settings.rules db.now chatText
      (.positional [.object (chatRecord peer changes)])).run db.shelf =
    (Query.insertUnder "conference" true identity (chatRecord peer changes)).run db.shelf := by
  have hauto : db.shelf.isAutoIncrement "conference" = false := by
    rw [Shelf.isAutoIncrement, hdb.autoIncrement]
    decide
  have hrecord : Query.insertRecord ⟨"conference", .object, true⟩
    (.positional [.object (chatRecord peer changes)]) = .ok (chatRecord peer changes) := rfl
  simp only [Query.executeText, parse_chatText, Query.execute, hdb.rules]
  rw [Query.run_executeInsert, hrecord]
  simp only [isEmpty_chatRecord, hauto, hresolve, Bool.false_eq_true, if_false]

/-- An update that is kept under the number of its chat keeps the caches right. -/
theorem right_updateChatSettings (hdb : db.Right chatEntries) (hkept : KeptUnder peer changes) :
    ((updateChatSettings peer changes).run db).2.Right chatEntries := by
  obtain ⟨identity, hresolve, hkey⟩ := hkept
  have hupdate : updateChatSettings peer changes = executeWrite chatText
    (.positional [.object (chatRecord peer changes)]) [.chatSettings peer] := rfl
  rw [hupdate]
  apply hdb.executeWrite
  intro outcome s' hrun
  have hinsert := (run_chatText hdb.standard hresolve).symm.trans hrun
  obtain ⟨hwritten, hfailed⟩ := Query.agreesOff_of_insertUnder hinsert
  rw [hkey] at hwritten
  refine ⟨Shelf.staysOff_chats hwritten fun other hplace => ?_, fun hfails => ?_⟩
  · rw [idText_injective (Prod.mk.inj (Option.some.inj hplace)).2]
  · exact Shelf.staysOff_chats (hfailed hfails) fun _ hplace => nomatch hplace

end DatabaseM

/-! ## Sessions -/

namespace Database
variable {db : Database}

/-- What may happen to the settings of chats. Every update is kept under the number of its chat. -/
inductive ChatAction where
  | look (peer : Int64)
  | update (peer : Int64) (changes : Record) (kept : KeptUnder peer changes)
  | drop (peer : Int64)
  | empty
  | sweep
  | sweepNamespace (ns : Namespace)
  | sweepRecords
  | advance (ms : ℕ)
  | calendar (now : ℕ)
  | startSweeps
  | stopSweeps

namespace ChatAction

/-- The action is no update. -/
def Quiet : ChatAction → Prop
  | .update .. => False
  | _ => True

/-- The database after an action, whether it fails or not. -/
def after (db : Database) : ChatAction → Database
  | .look peer => ((chatSettings peer).run db).2
  | .update peer changes _ => ((updateChatSettings peer changes).run db).2
  | .drop peer => ((invalidate (.chatSettings peer)).run db).2
  | .empty => db.emptied
  | .sweep => { db with caches := (db.caches.sweep db.clock).2 }
  | .sweepNamespace ns => { db with caches := (db.caches.sweepNamespace db.clock ns).2 }
  | .sweepRecords => { db with records := (db.records.sweep db.clock).2 }
  | .advance ms => db.advance ms
  | .calendar now => { db with now := now }
  | .startSweeps => db.startSweeps
  | .stopSweeps => db.stopSweeps

theorem right (hdb : db.Right chatEntries) (a : ChatAction) : (a.after db).Right chatEntries := by
  cases a with
  | look peer => exact (reads_chatSettings peer).right hdb
  | update peer changes kept => exact right_updateChatSettings hdb kept
  | drop peer => exact hdb.invalidate rfl (.refl _ _ _)
  | empty => exact hdb.emptied
  | sweep => exact hdb.sweep
  | sweepNamespace ns => exact hdb.sweepNamespace ns
  | sweepRecords => exact hdb.sweepRecords
  | advance ms => exact hdb.advance ms
  | calendar now => exact hdb.calendar now
  | startSweeps => exact hdb.startSweeps
  | stopSweeps => exact hdb.stopSweeps

end ChatAction

end Database

end RecordShelf

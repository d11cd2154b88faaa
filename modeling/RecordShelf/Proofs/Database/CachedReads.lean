import RecordShelf.Proofs.Database.Faithful

/-!
# Lookups through right caches

Every lookup of roles and nicknames in a database with right caches answers from the shelf, and so
does a lookup of many roles at once. Whatever is loaded on the way is right for its name.
-/

namespace RecordShelf

namespace DatabaseM
open Database
variable {α β κ : Type} {db : Database}

/-- In a database with right caches the action answers from the shelf, which it leaves as it is. -/
abbrev Reads (act : DatabaseM α) (answer : Shelf → Except Error α) : Prop :=
  ReadsBy memberEntries act answer

/-! ## Many lookups at once -/

section Batch
variable {ns : Namespace} {name : κ → String} {value : Shelf → κ → Json}

/-- What is found in the caches for some keys is right. -/
def FoundRight (value : κ → Json) (found : List (κ × Option Json)) : Prop :=
  ∀ entry ∈ found, ∀ v ∈ entry.2, v = value entry.1

theorem run_cachedAll (hright : ∀ s key v, s.Loads ns (name key) v ↔ v = value s key)
    (keys : List κ) (hdb : db.Faithful) :
    ∃ found db', (cachedAll ns name keys).run db = (.ok found, db') ∧ db'.shelf = db.shelf ∧
      db'.Faithful ∧ found.map (·.1) = keys ∧ FoundRight (value db.shelf) found := by
  induction keys generalizing db with
  | nil => exact ⟨[], db, rfl, rfl, hdb, rfl, fun _ h => absurd h List.not_mem_nil⟩
  | cons key keys ih =>
    have hafter := right_cached? hdb ns (name key)
    obtain ⟨found, db', hrun, hshelf, hdb', hkeys, hfound⟩ := ih hafter
    refine ⟨(key, (db.caches.get db.clock ns (name key)).1) :: found, db', ?_, hshelf, hdb', ?_, ?_⟩
    · rw [cachedAll, run_bind_of_ok (run_cached? ns (name key) db)]
      exact run_bind_of_ok hrun
    · rw [List.map_cons, hkeys]
    · intro entry hentry
      rcases List.mem_cons.1 hentry with rfl | hentry
      · exact fun v hv => (hright _ _ _).1 (hdb.values.right_of_get hv)
      · exact hfound entry hentry

theorem run_loadMissing (hright : ∀ s key v, s.Loads ns (name key) v ↔ v = value s key)
    {load : κ → DatabaseM Json} (hload : ∀ key, Reads (load key) fun s => .ok (value s key))
    (found : List (κ × Option Json)) (hdb : db.Faithful) (hfound : FoundRight (value db.shelf) found) :
    ∃ db', (loadMissing ns name load found).run db =
      (.ok (found.map fun entry => (entry.1, value db.shelf entry.1)), db') ∧
      db'.shelf = db.shelf ∧ db'.Faithful := by
  induction found generalizing db with
  | nil => exact ⟨db, rfl, rfl, hdb⟩
  | cons entry found ih =>
    obtain ⟨hentry, hothers⟩ := List.forall_mem_cons.1 hfound
    obtain ⟨key, cached⟩ := entry
    cases cached with
    | some v =>
      obtain ⟨db', hrun, hshelf, hdb'⟩ := ih hdb hothers
      refine ⟨db', ?_, hshelf, hdb'⟩
      rw [loadMissing, run_bind_of_ok hrun, hentry v rfl]
      rfl
    | none =>
      obtain ⟨db₁, hrun, hshelf, hdb₁⟩ := hload key db hdb
      have hv : db₁.shelf.Loads ns (name key) (value db.shelf key) :=
        (hright _ _ _).2 (by rw [hshelf])
      have hdb₂ := right_cache hdb₁ hv
      have hkept : FoundRight (value db₁.shelf) found := by
        rw [hshelf]
        exact hothers
      have hcache : (cache ns (name key) (value db.shelf key)).run db₁ =
        (.ok (), ((cache ns (name key) (value db.shelf key)).run db₁).2) := rfl
      obtain ⟨db', hrest, hshelf', hdb'⟩ := ih hdb₂ hkept
      refine ⟨db', ?_, hshelf'.trans hshelf, hdb'⟩
      have hsame : ((cache ns (name key) (value db.shelf key)).run db₁).2.shelf = db.shelf := hshelf
      rw [hsame] at hrest
      rw [loadMissing, run_bind_of_ok hrun, run_bind_of_ok hcache, run_bind_of_ok hrest]
      rfl

theorem reads_lookupAll [BEq κ] (hright : ∀ s key v, s.Loads ns (name key) v ↔ v = value s key)
    {load : κ → DatabaseM Json} (hload : ∀ key, Reads (load key) fun s => .ok (value s key))
    (keys : List κ) : Reads (lookupAll ns name keys load) fun s =>
      .ok (keys.eraseDups.map fun key => (key, value s key)) := by
  intro db hdb
  obtain ⟨found, db₁, hrun, hshelf, hdb₁, hkeys, hfound⟩ := run_cachedAll hright keys.eraseDups hdb
  rw [← hshelf] at hfound
  obtain ⟨db', hload, hshelf', hdb'⟩ := run_loadMissing hright hload found hdb₁ hfound
  refine ⟨db', ?_, hshelf'.trans hshelf, hdb'⟩
  dsimp only
  rw [lookupAll, run_bind_of_ok hrun, hload, hshelf, ← hkeys, List.map_map]
  rfl

end Batch

/-! ## Roles and nicknames -/

theorem reads_record? (conference user : Int64) :
    Reads (record? ((Invalidation.role conference user).recordName?.getD "")
      (rolesTable conference) (idText user))
      fun s => (s.get (rolesTable conference) (idText user)).map (·.map Json.object) := by
  obtain ⟨name, hname⟩ : ∃ name, (Invalidation.role conference user).recordName? = some name :=
    ⟨_, rfl⟩
  rw [hname, Option.getD_some]
  apply readsBy_record?
  intro s v
  constructor
  · intro h
    exact h conference user hname
  · intro h c u hsame
    obtain ⟨rfl, rfl⟩ := Invalidation.recordName_injective (hsame.trans hname.symm)
    exact h

theorem reads_roleValue (conference user : Int64) :
    Reads (roleValue conference user) fun s => .ok (.ofInt64 (s.roleAt conference user)) := by
  have hstored := (reads_record? conference user).map fun r =>
    ((r.bind (·.field? "role_id")).bind Json.toInt64?).getD 0
  apply ((hstored.tryCatch 0).map Json.ofInt64).congr
  intro s
  unfold Shelf.roleAt
  cases s.get (rolesTable conference) (idText user) with
  | error e => rfl
  | ok r => cases r <;> rfl

theorem reads_userRole (conference user : Int64) :
    Reads (userRole conference user) fun s => .ok (s.roleAt conference user) := by
  have hright (s : Shelf) (v : Json) :
      memberEntries.value s .userRoles (Invalidation.role conference user).key v ↔
        (.ok (.ofInt64 (s.roleAt conference user)) : Except Error Json) = .ok v :=
    Shelf.loads_role.trans ⟨fun h => by rw [h], fun h => (Except.ok.inj h).symm⟩
  have hlookup := readsBy_lookup (reads_roleValue conference user) hright
  apply (hlookup.map fun value : Json => value.toInt64?.getD 0).congr
  intro s
  simp [Except.map, toInt64?_ofInt64]

theorem reads_userRoles (conference : Int64) (users : List Int64) :
    Reads (userRoles conference users) fun s =>
      .ok (users.eraseDups.map fun user => (user, s.roleAt conference user)) := by
  have hlookup := reads_lookupAll (fun _ _ _ => Shelf.loads_role) (reads_roleValue conference) users
  apply (hlookup.map fun found =>
    found.map fun entry => (entry.1, entry.2.toInt64?.getD 0)).congr
  intro s
  simp [Except.map, Function.comp_def, toInt64?_ofInt64]

theorem reads_userNickname (peer user : Int64) :
    Reads (userNickname peer user) fun s => (s.nicknameAt peer user).map Json.string? := by
  have hstored := (readsBy_onShelf memberEntries (nicknamesTable peer) (idText user)).map fun r =>
    (r.bind (·.get? "nickname")).getD .null
  have hright (s : Shelf) (v : Json) :
      memberEntries.value s .userNicknames (Invalidation.nickname peer user).key v ↔
        s.nicknameAt peer user = .ok v := Shelf.loads_nickname
  have hlookup := readsBy_lookup hstored hright
  exact hlookup.map Json.string?

end DatabaseM

end RecordShelf

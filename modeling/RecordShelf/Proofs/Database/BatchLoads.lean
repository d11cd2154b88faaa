import RecordShelf.Proofs.Database.BatchSteps

/-!
# Loads of a batch

The loads of a batch share the cache of records, and the records that they keep may push others out
of it, those that are still to be looked for among them. What is known of each lookup at every
point: a role comes from the record that the cache of records had at the start, or from the shelf;
from the shelf it comes only if there was no such record, or there was no room for all of them, or
it is too old by now.
-/

namespace RecordShelf

namespace Batch
variable {conference : Int64} {users : List Int64} {start : Database} {σ : Batch} {user : Int64}

/-! ## What the loads find -/

section
variable (conference : Int64) (users : List Int64) (start : Database)

/-- The users whose roles the cache does not have. -/
def missing : List Int64 :=
  users.eraseDups.filter fun user => (cachedRole? start conference user).isNone

/-- The cache of records may not have room for the records of all users whose roles are loaded. -/
def Crowded : Prop :=
  start.records.maxEntries < start.records.size + (missing conference users start).length

/-- The name of a user's record in the cache of records. -/
def recordName (user : Int64) : String := "role_" ++ (Invalidation.role conference user).key

/-- The fresh record that the cache of records has for a user. -/
def heldRecord? (user : Int64) : Option Json :=
  (start.records.get start.clock (recordName conference user)).1

/-- The user's record in the cache of records is too old by now. -/
def Aged (user : Int64) (now : ℕ) : Prop := ∃ entry,
  (recordName conference user, entry) ∈ start.records.entries ∧
    start.records.isFresh now entry = false

/-- The cache of records had the user's record, but it may be gone by now. -/
def MayMiss (user : Int64) (now : ℕ) : Prop := (∃ r, heldRecord? conference start user = some r) →
  Crowded conference users start ∨ Aged conference start user now

/-- The record of a user for whom it is still to be looked is the one from the start, and it is
there unless there was no room for it or it is too old. -/
structure Kept (user : Int64) (db : Database) : Prop where
  old : ∀ entry, (recordName conference user, entry) ∈ db.records.entries →
    (recordName conference user, entry) ∈ start.records.entries
  there : ¬Crowded conference users start → ∀ entry,
    (recordName conference user, entry) ∈ start.records.entries →
      start.records.isFresh db.clock entry = true →
        (recordName conference user, entry) ∈ db.records.entries

/-- Where a role comes from that has been loaded: from the record that the cache of records had at
the start, or from the shelf. -/
inductive Source (user : Int64) (now : ℕ) : Taken → Prop
  | recalled {r : Json} (held : heldRecord? conference start user = some r) :
      Source user now ⟨.ok (some r), true, .ready⟩
  | read (missed : MayMiss conference users start user now) :
      Source user now ⟨(CachedEntry.role conference user).read start.shelf, false, .ready⟩

/-- What is known of a user's lookup. -/
inductive Standing (σ : Batch) (user : Int64) : LookupPhase → Prop
  | begun (other : user ∉ users) (unloaded : user ∉ σ.loads) : Standing σ user .begun
  | found {value : Json} (mem : user ∈ users)
      (cached : cachedRole? start conference user = some value) (unloaded : user ∉ σ.loads) :
      Standing σ user (.found value)
  | missed (mem : user ∈ missing conference users start) (unloaded : user ∉ σ.loads)
      (kept : Kept conference users start user σ.db) : Standing σ user .missed
  | unrecalled (mem : user ∈ missing conference users start) (loaded : user ∈ σ.loads)
      (missed : MayMiss conference users start user σ.db.clock) : Standing σ user .unrecalled
  | read {t : Taken} (mem : user ∈ missing conference users start) (loaded : user ∈ σ.loads)
      (source : Source conference users start user σ.db.clock t) : Standing σ user (.read t)
  | loaded {t : Taken} (mem : user ∈ missing conference users start) (loaded : user ∈ σ.loads)
      (source : Source conference users start user σ.db.clock t) : Standing σ user (.loaded t)
  | stored {t : Taken} {value : Json} (mem : user ∈ missing conference users start)
      (loaded : user ∈ σ.loads) (source : Source conference users start user σ.db.clock t)
      (value_eq : (CachedEntry.role conference user).value t.source = .ok value) :
      Standing σ user (.stored t value .ready)

/-- What holds at every point of a batch. -/
structure Consistent (σ : Batch) : Prop where
  shelf : σ.db.shelf = start.shelf
  clock : start.clock ≤ σ.db.clock
  distinct : σ.db.records.Distinct
  ttl : σ.db.records.ttl = start.records.ttl
  maxEntries : σ.db.records.maxEntries = start.records.maxEntries
  names : σ.db.records.entries.names ⊆
    start.records.entries.names ++ σ.loads.map (recordName conference)
  loads : σ.loads.Nodup
  standing : ∀ user, Standing conference users start σ user (σ.phase user)

end

theorem heldRecord_role (conference user : Int64) (db : Database) :
    (CachedEntry.role conference user).heldRecord db =
      ((db.records.get db.clock (recordName conference user)).1, { db with
        records := (db.records.get db.clock (recordName conference user)).2 }) := rfl

theorem recordName_ne {user other : Int64} (h : other ≠ user) :
    recordName conference other ≠ recordName conference user :=
  fun heq => h (Invalidation.recordName_injective (congrArg some heq)).2

theorem MayMiss.mono {now later : ℕ} (h : MayMiss conference users start user now)
    (hle : now ≤ later) : MayMiss conference users start user later := by
  intro hheld
  rcases h hheld with hcrowded | ⟨entry, hmem, hstale⟩
  · exact .inl hcrowded
  · refine .inr ⟨entry, hmem, Bool.eq_false_iff.2 fun hfresh => ?_⟩
    rw [TimedCache.isFresh_of_le hfresh hle] at hstale
    exact nomatch hstale

theorem Source.mono {now later : ℕ} {t : Taken} (h : Source conference users start user now t)
    (hle : now ≤ later) : Source conference users start user later t := by
  cases h with
  | recalled held => exact .recalled held
  | read missed => exact .read (missed.mono hle)

/-- What is known of one user's lookup stays true while others go on. -/
theorem Standing.mono {σ' : Batch} {phase : LookupPhase}
    (h : Standing conference users start σ user phase) (hloads : user ∈ σ'.loads ↔ user ∈ σ.loads)
    (hclock : σ.db.clock ≤ σ'.db.clock)
    (hkept : Kept conference users start user σ.db → Kept conference users start user σ'.db) :
    Standing conference users start σ' user phase := by
  cases h with
  | begun other unloaded => exact .begun other (mt hloads.1 unloaded)
  | found mem cached unloaded => exact .found mem cached (mt hloads.1 unloaded)
  | missed mem unloaded kept => exact .missed mem (mt hloads.1 unloaded) (hkept kept)
  | unrecalled mem loaded missed => exact .unrecalled mem (hloads.2 loaded) (missed.mono hclock)
  | read mem loaded source => exact .read mem (hloads.2 loaded) (source.mono hclock)
  | loaded mem loaded source => exact .loaded mem (hloads.2 loaded) (source.mono hclock)
  | stored mem loaded source value_eq =>
    exact .stored mem (hloads.2 loaded) (source.mono hclock) value_eq

theorem Standing.mem_missing {phase : LookupPhase}
    (h : Standing conference users start σ user phase) (hloaded : user ∈ σ.loads) :
    user ∈ missing conference users start := by
  cases h with
  | begun _ unloaded => exact absurd hloaded unloaded
  | found _ _ unloaded => exact absurd hloaded unloaded
  | missed mem | unrecalled mem | read mem | loaded mem | stored mem => exact mem

/-! ### The cache of records -/

/-- A record of another user is as much there after a lookup of a record as before. -/
theorem Kept.get {db : Database} {other : Int64} (h : Kept conference users start other db)
    (hdistinct : db.records.Distinct) (hne : other ≠ user) :
    Kept conference users start other
      { db with records := (db.records.get db.clock (recordName conference user)).2 } := by
  constructor
  · exact fun entry hmem =>
      h.old entry ((TimedCache.mem_get_iff hdistinct (recordName_ne hne)).1 hmem)
  · intro hroom entry hmem hfresh
    exact (TimedCache.mem_get_iff hdistinct (recordName_ne hne)).2 (h.there hroom entry hmem hfresh)

/-- So it is after a record has been kept, if there was room for it. -/
theorem Kept.set {db : Database} {other : Int64} (h : Kept conference users start other db)
    (hdistinct : db.records.Distinct) (hne : other ≠ user) {r : Json}
    (hroom : ¬Crowded conference users start →
      (db.records.place db.clock (recordName conference user) r).size ≤ db.records.maxEntries) :
    Kept conference users start other
      { db with records := db.records.set db.clock (recordName conference user) r } := by
  constructor
  · intro entry hmem
    exact h.old entry ((TimedCache.mem_place_iff hdistinct (recordName_ne hne)).1
      ((TimedCache.trim_sublist _).subset hmem))
  · intro hcrowded entry hmem hfresh
    dsimp only
    rw [TimedCache.set, TimedCache.trim_of_le (hroom hcrowded)]
    exact (TimedCache.mem_place_iff hdistinct (recordName_ne hne)).2
      (h.there hcrowded entry hmem hfresh)

/-- As time goes on only records that are too old are removed. -/
theorem Kept.advance {db : Database} (h : Kept conference users start user db)
    (httl : db.records.ttl = start.records.ttl) (ms : ℕ) :
    Kept conference users start user (db.advance ms) := by
  have hclock : db.clock ≤ (db.advance ms).clock := by
    rw [Database.clock_advance]
    exact Nat.le_add_right _ _
  have hsame : db.records.isFresh = start.records.isFresh := by
    funext now entry
    rw [TimedCache.isFresh, TimedCache.isFresh, httl]
  rcases db.records_advance_le ms with hrecords | ⟨due, hdue, hrecords⟩
  · constructor
    · rw [hrecords]
      exact h.old
    · rw [hrecords]
      exact fun hroom entry hmem hfresh =>
        h.there hroom entry hmem (TimedCache.isFresh_of_le hfresh hclock)
  · constructor
    · rw [hrecords]
      exact fun entry hmem => h.old entry (TimedCache.mem_sweep_iff.1 hmem).1
    · rw [hrecords]
      intro hroom entry hmem hfresh
      refine TimedCache.mem_sweep_iff.2
        ⟨h.there hroom entry hmem (TimedCache.isFresh_of_le hfresh hclock), ?_⟩
      rw [hsame]
      exact TimedCache.isFresh_of_le hfresh hdue

namespace Consistent

/-- Without a crowd there is always room. -/
theorem room (h : Consistent conference users start σ) {c : TimedCache Json} (hc : c.Distinct)
    (hnames : c.entries.names ⊆ start.records.entries.names ++ σ.loads.map (recordName conference))
    (hroom : ¬Crowded conference users start) : c.size ≤ start.records.maxEntries := by
  have hsize := TimedCache.size_le_of_names hc hnames
  have hloads : σ.loads.length ≤ (missing conference users start).length := by
    have hsub : σ.loads ⊆ missing conference users start := fun user hmem =>
      (h.standing user).mem_missing hmem
    exact (List.Nodup.subperm h.loads hsub).length_le
  have hbound : start.records.size + (missing conference users start).length ≤
      start.records.maxEntries := Nat.not_lt.1 hroom
  have hstart : start.records.entries.names.length = start.records.size := List.length_map _
  rw [List.length_append, List.length_map, hstart] at hsize
  omega

theorem isFresh_eq (h : Consistent conference users start σ) :
    σ.db.records.isFresh = start.records.isFresh := by
  funext now entry
  rw [TimedCache.isFresh, TimedCache.isFresh, h.ttl]

/-- A step of one user's lookup that looks at nothing of the others'. -/
theorem of_update (h : Consistent conference users start σ) {σ' : Batch} {phase : LookupPhase}
    (hphase : σ'.phase = Function.update σ.phase user phase)
    (hloads : ∀ other, other ≠ user → (other ∈ σ'.loads ↔ other ∈ σ.loads))
    (hclock : σ'.db.clock = σ.db.clock)
    (hkept : ∀ other, other ≠ user → Kept conference users start other σ.db →
      Kept conference users start other σ'.db)
    (hstanding : Standing conference users start σ' user phase) (other : Int64) :
    Standing conference users start σ' other (σ'.phase other) := by
  rw [hphase]
  by_cases hother : other = user
  · subst hother
    rw [Function.update_self]
    exact hstanding
  · rw [Function.update_of_ne hother]
    exact (h.standing other).mono (hloads other hother) hclock.ge (hkept other hother)

/-- What is recalled is what the cache of records had at the start. -/
theorem recalled (h : Consistent conference users start σ) (hstart : start.records.Distinct)
    (hkept : Kept conference users start user σ.db) {r : Json}
    (hfound : (σ.db.records.get σ.db.clock (recordName conference user)).1 = some r) :
    heldRecord? conference start user = some r := by
  obtain ⟨entry, hmem, hfresh, hvalue⟩ := (TimedCache.get_eq_some_iff h.distinct).1 hfound
  rw [h.isFresh_eq] at hfresh
  exact (TimedCache.get_eq_some_iff hstart).2
    ⟨entry, hkept.old entry hmem, TimedCache.isFresh_of_le hfresh h.clock, hvalue⟩

/-- What is not recalled the cache of records had not, or it is gone. -/
theorem mayMiss (h : Consistent conference users start σ) (hstart : start.records.Distinct)
    (hkept : Kept conference users start user σ.db)
    (hfound : (σ.db.records.get σ.db.clock (recordName conference user)).1 = none) :
    MayMiss conference users start user σ.db.clock := by
  rintro ⟨r, hheld⟩
  obtain ⟨entry, hmem, -, hvalue⟩ := (TimedCache.get_eq_some_iff hstart).1 hheld
  by_cases hcrowded : Crowded conference users start
  · exact .inl hcrowded
  · refine .inr ⟨entry, hmem, Bool.eq_false_iff.2 fun hfresh => ?_⟩
    have hthere := hkept.there hcrowded entry hmem hfresh
    rw [← h.isFresh_eq] at hfresh
    have hsome := (TimedCache.get_eq_some_iff h.distinct).2 ⟨entry, hthere, hfresh, hvalue⟩
    exact nomatch hfound.symm.trans hsome

/-! ### Steps -/

theorem look_missed (h : Consistent conference users start σ) (hstart : start.records.Distinct)
    (hphase : σ.phase user = .missed) :
    Consistent conference users start (σ.look conference user) := by
  have hstanding := h.standing user
  rw [hphase] at hstanding
  cases hstanding with
  | missed mem unloaded kept =>
    obtain ⟨phase, hnext, hnow⟩ : ∃ phase,
        (σ.phase user).next (.role conference user) .ready σ.db = (phase, { σ.db with
          records := (σ.db.records.get σ.db.clock (recordName conference user)).2 }) ∧
        ∀ σ' : Batch, σ'.db.clock = σ.db.clock → user ∈ σ'.loads →
          Standing conference users start σ' user phase := by
      rw [hphase, LookupPhase.next, heldRecord_role]
      cases hfound : (σ.db.records.get σ.db.clock (recordName conference user)).1 with
      | some r =>
        have hheld := h.recalled hstart kept hfound
        exact ⟨_, rfl, fun σ' _ hloaded => .loaded mem hloaded (.recalled hheld)⟩
      | none =>
        refine ⟨_, rfl, fun σ' hclock hloaded => .unrecalled mem hloaded ?_⟩
        rw [hclock]
        exact h.mayMiss hstart kept hfound
    rw [look_of_next hnext, hphase]
    refine ⟨h.shelf, h.clock, h.distinct.get _ _, (TimedCache.get_ttl _ _ _).trans h.ttl,
      (TimedCache.get_maxEntries _ _ _).trans h.maxEntries, ?_,
      List.nodup_cons.2 ⟨unloaded, h.loads⟩,
      h.of_update rfl (fun other hne => ?_) rfl (fun other hne hkept => ?_) ?_⟩
    · refine List.Subset.trans (List.Subset.trans (TimedCache.names_get_subset _ _ _) h.names) ?_
      exact List.append_subset.2 ⟨List.subset_append_left _ _, fun _ hname =>
        List.mem_append_right _ (List.mem_cons_of_mem _ hname)⟩
    · exact List.mem_cons.trans (or_iff_right hne)
    · exact hkept.get h.distinct hne
    · exact hnow _ rfl List.mem_cons_self

/-- A step that changes nothing in the cache of records. -/
theorem of_records (h : Consistent conference users start σ) {phase : LookupPhase} {db : Database}
    (hshelf : db.shelf = σ.db.shelf) (hclock : db.clock = σ.db.clock)
    (hrecords : db.records = σ.db.records)
    (hstanding : Standing conference users start ⟨db, Function.update σ.phase user phase, σ.loads⟩
      user phase) :
    Consistent conference users start ⟨db, Function.update σ.phase user phase, σ.loads⟩ := by
  have hkept : ∀ other, Kept conference users start other σ.db →
      Kept conference users start other db := by
    intro other hkept
    constructor
    · rw [hrecords]
      exact hkept.old
    · rw [hrecords, hclock]
      exact hkept.there
  refine ⟨hshelf.trans h.shelf, h.clock.trans hclock.ge, ?_, ?_, ?_, ?_, h.loads,
    h.of_update rfl (fun _ _ => Iff.rfl) hclock (fun other _ => hkept other) hstanding⟩
  · rw [hrecords]
    exact h.distinct
  · rw [hrecords]
    exact h.ttl
  · rw [hrecords]
    exact h.maxEntries
  · rw [hrecords]
    exact h.names

theorem look_unrecalled (h : Consistent conference users start σ)
    (hphase : σ.phase user = .unrecalled) :
    Consistent conference users start (σ.look conference user) := by
  have hstanding := h.standing user
  rw [hphase] at hstanding
  cases hstanding with
  | unrecalled mem loaded missed =>
    have hnext : (σ.phase user).next (.role conference user) .ready σ.db =
        (.read ⟨(CachedEntry.role conference user).read start.shelf, false, .ready⟩, σ.db) := by
      rw [hphase, ← h.shelf]
      rfl
    rw [look_of_next hnext, hphase]
    exact h.of_records rfl rfl rfl (.read mem loaded (.read missed))

theorem look_read {t : Taken} (h : Consistent conference users start σ)
    (hphase : σ.phase user = .read t) :
    Consistent conference users start (σ.look conference user) := by
  have hstanding := h.standing user
  rw [hphase] at hstanding
  cases hstanding with
  | read mem loaded source =>
    have hnext : (σ.phase user).next (.role conference user) .ready σ.db =
        (.loaded t, (CachedEntry.role conference user).keep σ.db t.source) := by
      rw [hphase]
      rfl
    rw [look_of_next hnext, hphase]
    by_cases hrecord : ∃ r, t.source = .ok (some r)
    · obtain ⟨r, hr⟩ := hrecord
      have hkeep : (CachedEntry.role conference user).keep σ.db t.source = { σ.db with
          records := σ.db.records.set σ.db.clock (recordName conference user) r } := by
        rw [hr]
        rfl
      have hnames : (σ.db.records.place σ.db.clock (recordName conference user) r).entries.names ⊆
          start.records.entries.names ++ σ.loads.map (recordName conference) := by
        refine List.Subset.trans (TimedCache.names_place_subset _ _ _ _)
          (List.cons_subset.2 ⟨?_, h.names⟩)
        exact List.mem_append_right _ (List.mem_map.2 ⟨user, loaded, rfl⟩)
      rw [hkeep]
      refine ⟨h.shelf, h.clock, h.distinct.set _ _ _, (TimedCache.set_ttl _ _ _ _).trans h.ttl,
        (TimedCache.trim_maxEntries _).trans h.maxEntries, ?_, h.loads,
        h.of_update rfl (fun _ _ => Iff.rfl) rfl (fun other hne hkept => ?_)
          (.loaded mem loaded source)⟩
      · exact List.Subset.trans ((TimedCache.trim_sublist _).map _).subset hnames
      · refine hkept.set h.distinct hne fun hroom => ?_
        rw [h.maxEntries]
        exact h.room (h.distinct.place _ _ _) hnames hroom
    · have hkeep : (CachedEntry.role conference user).keep σ.db t.source = σ.db := by
        unfold CachedEntry.keep
        split
        · rename_i r hr
          exact absurd ⟨r, hr⟩ hrecord
        · rfl
      rw [hkeep]
      exact h.of_records rfl rfl rfl (.loaded mem loaded source)

theorem look_loaded {t : Taken} (h : Consistent conference users start σ)
    (hphase : σ.phase user = .loaded t) :
    Consistent conference users start (σ.look conference user) := by
  have hstanding := h.standing user
  rw [hphase] at hstanding
  cases hstanding with
  | loaded mem loaded source =>
    obtain ⟨value, hvalue⟩ := exists_value conference user t.source
    have hnext := next_loaded hvalue σ.db
    rw [← hphase] at hnext
    rw [look_of_next hnext, hphase]
    exact h.of_records rfl rfl rfl (.stored mem loaded source hvalue)

/-- A lookup that is done stays as it is. -/
theorem look_of_done (hnext : (σ.phase user).next (.role conference user) .ready σ.db =
    (σ.phase user, σ.db)) (hmissed : (σ.phase user).isMissed = false) :
    σ.look conference user = σ := by
  rw [look_of_next hnext, hmissed, Function.update_eq_self]
  rfl

theorem look (h : Consistent conference users start σ) (hstart : start.records.Distinct)
    (hbegun : (σ.phase user).isBegun = false) :
    Consistent conference users start (σ.look conference user) := by
  cases hphase : σ.phase user with
  | begun =>
    rw [hphase] at hbegun
    exact nomatch hbegun
  | missed => exact h.look_missed hstart hphase
  | unrecalled => exact h.look_unrecalled hphase
  | read t => exact h.look_read hphase
  | loaded t => exact h.look_loaded hphase
  | found value =>
    rwa [look_of_done (by rw [hphase]; rfl) (by rw [hphase]; rfl)]
  | failed err =>
    rwa [look_of_done (by rw [hphase]; rfl) (by rw [hphase]; rfl)]
  | stored t value write =>
    rwa [look_of_done (by rw [hphase]; rfl) (by rw [hphase]; rfl)]

theorem wait (h : Consistent conference users start σ) (ms : ℕ) :
    Consistent conference users start { σ with db := σ.db.advance ms } := by
  have hclock : σ.db.clock ≤ (σ.db.advance ms).clock := by
    rw [Database.clock_advance]
    exact Nat.le_add_right _ _
  have hrecords : (σ.db.advance ms).records.ttl = σ.db.records.ttl ∧
      (σ.db.advance ms).records.maxEntries = σ.db.records.maxEntries ∧
      (σ.db.advance ms).records.entries.names ⊆ σ.db.records.entries.names := by
    rcases σ.db.records_advance ms with hsame | ⟨due, hswept⟩
    · rw [hsame]
      exact ⟨rfl, rfl, List.Subset.refl _⟩
    · rw [hswept]
      exact ⟨rfl, rfl, (List.filter_sublist.map _).subset⟩
  refine ⟨(Database.shelf_advance _ ms).trans h.shelf, h.clock.trans hclock,
    Database.distinct_records_advance h.distinct ms, hrecords.1.trans h.ttl,
    hrecords.2.1.trans h.maxEntries, List.Subset.trans hrecords.2.2 h.names, h.loads,
    fun user => ?_⟩
  exact (h.standing user).mono Iff.rfl hclock fun hkept => hkept.advance h.ttl ms

theorem step (h : Consistent conference users start σ) (hstart : start.records.Distinct)
    (turn : Turn) : Consistent conference users start (σ.step conference turn) := by
  cases turn with
  | load user =>
    cases hbegun : (σ.phase user).isBegun with
    | true => rwa [Batch.step, hbegun, if_pos rfl]
    | false =>
      rw [Batch.step, hbegun, if_neg Bool.false_ne_true]
      exact h.look hstart hbegun
  | wait ms => exact h.wait ms

theorem foldl_step (h : Consistent conference users start σ) (hstart : start.records.Distinct)
    (turns : List Turn) :
    Consistent conference users start (turns.foldl (Batch.step conference) σ) := by
  induction turns generalizing σ with
  | nil => exact h
  | cons turn turns ih => exact ih (h.step hstart turn)

end Consistent

theorem mem_missing : user ∈ missing conference users start ↔
    user ∈ users ∧ cachedRole? start conference user = none := by
  rw [missing, List.mem_filter, List.mem_eraseDups, Option.isNone_iff_eq_none]

theorem consistent_asked (conference : Int64) (users : List Int64) {start : Database}
    (hstart : start.records.Distinct) :
    Consistent conference users start (asked conference users start) := by
  obtain ⟨⟨caches, hdb⟩, hloads, hphase⟩ := asked_eq conference users start
  have hunloaded : ∀ user, user ∉ (asked conference users start).loads := by
    intro user
    rw [hloads]
    exact List.not_mem_nil
  refine ⟨by rw [hdb], by rw [hdb], ?_, by rw [hdb], by rw [hdb], ?_, ?_, fun user => ?_⟩
  · rw [hdb]
    exact hstart
  · rw [hdb]
    exact List.subset_append_left _ _
  · rw [hloads]
    exact List.nodup_nil
  · rw [hphase]
    split_ifs with hmem
    · cases hcached : cachedRole? start conference user with
      | some value => exact .found hmem hcached (hunloaded user)
      | none =>
        refine .missed (mem_missing.2 ⟨hmem, hcached⟩) (hunloaded user) ?_
        rw [hdb]
        exact ⟨fun _ h => h, fun _ _ h _ => h⟩
    · exact .begun hmem (hunloaded user)

/-- However the loads alternate, a batch stays consistent. -/
theorem consistent_run (conference : Int64) (users : List Int64) {start : Database}
    (hstart : start.records.Distinct) (turns : List Turn) :
    Consistent conference users start (run conference users start turns) :=
  (consistent_asked conference users hstart).foldl_step hstart turns

end Batch

end RecordShelf

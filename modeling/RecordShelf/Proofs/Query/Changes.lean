import RecordShelf.Database.Roles
import RecordShelf.Proofs.Query.Params
import RecordShelf.Proofs.Query.Steps
import RecordShelf.Proofs.Shelf.Content

/-!
# What statements change

Each kind of statement changes the contents of record files in ways of its own, one file at a time,
and a statement that fails on the way has made some of its changes. So what every single change
keeps is kept by every run of statements.
-/

namespace RecordShelf

/-- The table in which a statement changes contents. -/
def Sql.Statement.target? : Sql.Statement → Option String
  | .insert i => some i.table
  | .update u => some u.table
  | .delete d => some d.table
  | .select _ | .createTable _ | .showTables => none

namespace Query
open Sql RecordShelf.Shelf
variable {rules : Rules} {params : Params} {auto : List String} {s s' : Shelf}

/-- A single change that a statement makes to the contents of record files. -/
inductive Change (rules : Rules) (params : Params) (s s' : Shelf) : Statement → Prop
  | keep (statement : Statement) (same : ∀ place, s'.content place = s.content place) :
      Change rules params s s' statement
  | count {i : Insert} (numbered : s.isAutoIncrement i.table = true) (id : Int64)
      (writes : s.Writes s' (i.table, counterKey) [(counterKey, .ofInt64 id)]) :
      Change rules params s s' (.insert i)
  | number {i : Insert} {r : Record} (numbered : s.isAutoIncrement i.table = true)
      (record : insertRecord i params = .ok r) (id : Int64)
      (writes : s.Writes s' (i.table, idText id) (r.insert "id" (.ofInt64 id))) :
      Change rules params s s' (.insert i)
  | keyed {i : Insert} {r : Record} {identity : Identity}
      (plain : s.isAutoIncrement i.table = false) (record : insertRecord i params = .ok r)
      (resolves : rules.identity.resolve i.table r = some identity)
      (writes : s.Writes s' (i.table, identity.key)
        (mergeRecord i.onDuplicate (s.record (i.table, identity.key)) r)) :
      Change rules params s s' (.insert i)
  | stamped {i : Insert} {r : Record} {n : ℕ} (plain : s.isAutoIncrement i.table = false)
      (record : insertRecord i params = .ok r)
      (nameless : rules.identity.resolve i.table r = none)
      (free : s.content (i.table, String.ofList (decimalDigits n)) = none)
      (writes : s.Writes s' (i.table, String.ofList (decimalDigits n)) r) :
      Change rules params s s' (.insert i)
  | assign {u : Update} {key : String} {r : Record}
      (visible : s.isAutoIncrement u.table = true → key ≠ counterKey)
      (record : s.record (u.table, key) = some r)
      (writes : s.Writes s' (u.table, key)
        (assign rules.filter r (bindAssignments u params).1)) :
      Change rules params s s' (.update u)
  | remove {d : Delete} {key : String}
      (visible : s.isAutoIncrement d.table = true → key ≠ counterKey)
      (gone : s'.content (d.table, key) = none)
      (others : ∀ place, place ≠ (d.table, key) → s'.content place = s.content place) :
      Change rules params s s' (.delete d)

/-- A change leaves the contents of other tables. -/
theorem Change.elsewhere {statement : Statement} {table : String}
    (h : Change rules params s s' statement) (htarget : statement.target? ≠ some table)
    (key : String) : s'.content (table, key) = s.content (table, key) := by
  have hplace : ∀ {t k : String}, some t ≠ some table → (table, key) ≠ (t, k) :=
    fun ht heq => ht (congrArg some (congrArg Prod.fst heq).symm)
  cases h with
  | keep _ same => exact same _
  | count _ _ writes => exact writes.others _ (hplace htarget)
  | number _ _ _ writes => exact writes.others _ (hplace htarget)
  | keyed _ _ _ writes => exact writes.others _ (hplace htarget)
  | stamped _ _ _ _ writes => exact writes.others _ (hplace htarget)
  | assign _ _ writes => exact writes.others _ (hplace htarget)
  | remove _ _ others => exact others _ (hplace htarget)

/-- A well-formed shelf with given numbered tables. -/
structure Orderly (auto : List String) (s : Shelf) : Prop where
  wellformed : s.Wellformed
  numbered : s.autoIncrement = auto

theorem Orderly.isAutoIncrement (h : Orderly auto s) (table : String) :
    s.isAutoIncrement table = auto.contains table := by
  rw [Shelf.isAutoIncrement, h.numbered]

/-- A change of an orderly shelf gives another one. -/
def Edit (rules : Rules) (params : Params) (statement : Statement) (auto : List String)
    (s s' : Shelf) : Prop :=
  Orderly auto s → Orderly auto s' ∧ Change rules params s s' statement

section
variable {statement : Statement} {α : Type}

theorem edit_of_run {act : ShelfM α} (hsteps : Moves Step act)
    (hchange : Orderly auto s → Change rules params s (act.run s).2 statement) :
    Edit rules params statement auto s (act.run s).2 := by
  refine fun hs => ⟨⟨?_, ?_⟩, hchange hs⟩
  · exact hsteps.keeps (fun _ _ hstep => hstep.wellformed) hs.wellformed
  · exact hsteps.keeps (P := fun s => s.autoIncrement = auto)
      (fun _ _ hstep => hstep.autoIncrement.trans) hs.numbered

/-- A write of a record is one change, and none if it fails. -/
theorem edit_put {table key : String} {r : Record}
    (h : ∀ s', Orderly auto s → s.Writes s' (table, key) r → Change rules params s s' statement) :
    Edit rules params statement auto s ((ShelfM.put table key r).run s).2 := by
  refine edit_of_run (ShelfM.moves_put table key r) fun hs => ?_
  cases hput : (ShelfM.put table key r).run s with
  | mk outcome s₁ =>
    cases outcome with
    | ok _ => exact h s₁ hs (ShelfM.writes_of_put hput)
    | error e => exact .keep _ (ShelfM.content_of_put_error hput)

end

/-! ## INSERT -/

section
variable {i : Insert} {r : Record}

/-- An INSERT first finds its record, then the way to store it. -/
theorem run_executeInsert (stamp : ℕ) (i : Insert) (params : Params) (s : Shelf) :
    (executeInsert rules stamp i params).run s =
      match insertRecord i params with
      | .error e => (.error e, s)
      | .ok r =>
        if r.isEmpty = true then (.error (.insertData i.table .noFields), s)
        else if s.isAutoIncrement i.table = true then (insertNumbered i.table r).run s
        else
          match rules.identity.resolve i.table r with
          | none => (do return inserted (.ofNat (← ShelfM.putGenerated i.table stamp r)) :
              ShelfM Result).run s
          | some identity => (insertUnder i.table i.onDuplicate identity r).run s := by
  cases hrecord : insertRecord i params with
  | error e =>
    have hread : (ShelfM.read fun _ => insertRecord i params).run s = (.error e, s) := by
      rw [ShelfM.run_read, hrecord]
    rw [executeInsert, run_bind_of_error hread]
  | ok r =>
    have hread : (ShelfM.read fun _ => insertRecord i params).run s = (.ok r, s) := by
      rw [ShelfM.run_read, hrecord]
    rw [executeInsert, run_bind_of_ok hread]
    dsimp only
    by_cases hempty : r.isEmpty = true
    · rw [if_pos hempty, if_pos hempty]
      rfl
    · rw [if_neg hempty, if_neg hempty, run_bind_of_ok (ShelfM.run_getThe s)]
      by_cases hauto : s.isAutoIncrement i.table = true
      · rw [if_pos hauto, if_pos hauto]
      · rw [if_neg hauto, if_neg hauto]
        cases rules.identity.resolve i.table r <;> rfl

theorem edits_insertNumbered (hauto : auto.contains i.table = true)
    (hrecord : insertRecord i params = .ok r) :
    Moves (Edit rules params (.insert i) auto) (insertNumbered i.table r) := by
  refine .bind (.bind (ShelfM.moves_read _) fun counter => .bind (fun s => .single ?_) fun _ =>
    .pure _) fun id => .bind (fun s => .single ?_) fun _ => .pure _
  · refine edit_put fun s' hs hwrites => .count ?_ _ hwrites
    rw [hs.isAutoIncrement, hauto]
  · refine edit_put fun s' hs hwrites => .number ?_ hrecord id hwrites
    rw [hs.isAutoIncrement, hauto]

theorem edits_insertUnder (hauto : auto.contains i.table = false)
    (hrecord : insertRecord i params = .ok r) {identity : Identity}
    (hidentity : rules.identity.resolve i.table r = some identity) :
    Moves (Edit rules params (.insert i) auto)
      (insertUnder i.table i.onDuplicate identity r) := by
  intro s
  refine Moves.bind_at (ShelfM.moves_read _ s) fun existing s₁ hget => ?_
  obtain ⟨hget, rfl⟩ := ShelfM.run_read_ok hget
  refine Moves.bind_at (.single (edit_put fun s' hs hwrites => ?_)) fun _ s' _ => .refl
  rw [← record_of_get hget] at hwrites
  exact .keyed (by rw [hs.isAutoIncrement, hauto]) hrecord hidentity hwrites

theorem edits_putGenerated (hauto : auto.contains i.table = false)
    (hrecord : insertRecord i params = .ok r)
    (hidentity : rules.identity.resolve i.table r = none) (stamp : ℕ) :
    Moves (Edit rules params (.insert i) auto) (ShelfM.putGenerated i.table stamp r) := by
  refine fun s => .single (edit_of_run (ShelfM.moves_putGenerated i.table stamp r) fun hs => ?_)
  cases hput : (ShelfM.putGenerated i.table stamp r).run s with
  | mk outcome s₁ =>
    cases outcome with
    | ok n =>
      obtain ⟨hfree, hwrites⟩ := ShelfM.writes_of_putGenerated hput
      exact .stamped (by rw [hs.isAutoIncrement, hauto]) hrecord hidentity hfree hwrites
    | error e => exact .keep _ (ShelfM.content_of_putGenerated_error hput)

theorem edits_executeInsert (stamp : ℕ) (i : Insert) (s : Shelf) :
    Relation.ReflTransGen (Edit rules params (.insert i) s.autoIncrement) s
      ((executeInsert rules stamp i params).run s).2 := by
  rw [run_executeInsert]
  cases hrecord : insertRecord i params with
  | error e => exact .refl
  | ok r =>
    dsimp only
    split_ifs with hempty hauto
    · exact .refl
    · exact edits_insertNumbered hauto hrecord s
    · have hplain : s.autoIncrement.contains i.table = false := by
        exact Bool.eq_false_iff.2 hauto
      cases hidentity : rules.identity.resolve i.table r with
      | none =>
        exact Moves.bind (edits_putGenerated hplain hrecord hidentity stamp) (fun _ => .pure _) s
      | some identity => exact edits_insertUnder hplain hrecord hidentity s

end

/-! ## UPDATE and DELETE -/

theorem edits_updateKey {u : Update} {key : String} {predicates : List Predicate}
    (hvisible : auto.contains u.table = true → key ≠ counterKey) :
    Moves (Edit rules params (.update u) auto)
      (updateKey rules u.table predicates (bindAssignments u params).1 key) := by
  intro s
  refine Moves.bind_at (ShelfM.moves_read _ s) fun found s₁ hget => ?_
  obtain ⟨hget, rfl⟩ := ShelfM.run_read_ok hget
  cases found with
  | none => exact .refl
  | some r =>
    dsimp only
    split_ifs
    · refine Moves.bind_at (.single (edit_put fun s' hs hwrites => ?_)) fun _ s' _ => .refl
      refine .assign (fun hnumbered => hvisible ?_) (record_of_get hget) hwrites
      rw [← hs.isAutoIncrement, hnumbered]
    · exact .refl

theorem edits_deleteKey {d : Delete} {key : String} {predicates : List Predicate}
    (hvisible : auto.contains d.table = true → key ≠ counterKey) :
    Moves (Edit rules params (.delete d) auto) (deleteKey rules d.table predicates key) := by
  intro s
  refine Moves.bind_at (ShelfM.moves_read _ s) fun found s₁ hget => ?_
  obtain ⟨-, rfl⟩ := ShelfM.run_read_ok hget
  cases found with
  | none => exact .refl
  | some r =>
    dsimp only
    split_ifs
    · refine .single (edit_of_run (ShelfM.moves_remove d.table key) fun hs => ?_)
      cases hremove : (ShelfM.remove d.table key).run s₁ with
      | mk outcome s₂ =>
        cases outcome with
        | ok removed =>
          obtain ⟨hgone, hothers⟩ := ShelfM.content_of_remove hs.wellformed hremove
          refine .remove (fun hnumbered => hvisible ?_) hgone hothers
          rw [← hs.isAutoIncrement, hnumbered]
        | error e =>
          rw [ShelfM.shelf_of_remove_error hremove]
          exact .keep _ fun _ => rfl
    · exact .refl

/-- The keys of the records that match leave out the counter. -/
theorem visible_of_matchingKeys {table : String} {predicates : List Predicate} {keys : List String}
    (h : (matchingKeys rules table predicates).run s = (.ok keys, s')) :
    s' = s ∧ ∀ key ∈ keys, s.isAutoIncrement table = true → key ≠ counterKey := by
  obtain ⟨rows, s₁, hscan, hreturn⟩ := run_bind_ok h
  cases hreturn
  obtain ⟨hscan, rfl⟩ := ShelfM.run_read_ok hscan
  refine ⟨rfl, fun key hkey hauto => ?_⟩
  obtain ⟨row, hrow, rfl⟩ := List.mem_map.1 hkey
  exact ne_counterKey_of_scan hauto hscan row (List.mem_of_mem_filter hrow)

theorem edits_executeUpdate (u : Update) (s : Shelf) :
    Relation.ReflTransGen (Edit rules params (.update u) s.autoIncrement) s
      ((executeUpdate rules u params).run s).2 := by
  refine Moves.bind_at (ShelfM.moves_read _ s) fun made s₁ hmade => ?_
  obtain ⟨-, rfl⟩ := ShelfM.run_read_ok hmade
  split_ifs
  · refine Moves.bind_at (moves_matchingKeys s₁) fun keys s₂ hkeys => ?_
    obtain ⟨rfl, hvisible⟩ := visible_of_matchingKeys hkeys
    exact Moves.bind (moves_countKeys fun key hkey => edits_updateKey (hvisible key hkey))
      (fun _ => .pure _) s₂
  · exact .refl

theorem edits_executeDelete (d : Delete) (s : Shelf) :
    Relation.ReflTransGen (Edit rules params (.delete d) s.autoIncrement) s
      ((executeDelete rules d params).run s).2 := by
  refine Moves.bind_at (moves_matchingKeys s) fun keys s₁ hkeys => ?_
  obtain ⟨rfl, hvisible⟩ := visible_of_matchingKeys hkeys
  exact Moves.bind (moves_countKeys fun key hkey => edits_deleteKey (hvisible key hkey))
    (fun _ => .pure _) s₁

/-! ## Whole statements -/

/-- Whatever a statement does to contents, it does by changes of its kind. -/
theorem edits_execute (stamp : ℕ) (statement : Statement) (s : Shelf) :
    Relation.ReflTransGen (Edit rules params statement s.autoIncrement) s
      ((execute rules stamp statement params).run s).2 := by
  cases statement with
  | select q => exact Moves.bind (ShelfM.moves_read _) (fun _ => .pure _) s
  | insert i => exact edits_executeInsert stamp i s
  | update u => exact edits_executeUpdate u s
  | delete d => exact edits_executeDelete d s
  | createTable c =>
    refine Moves.bind_at (.single (edit_of_run (ShelfM.moves_ensureTable c.name) fun _ => ?_))
      fun _ _ _ => .refl
    cases hmade : (ShelfM.ensureTable c.name).run s with
    | mk outcome s₁ => exact .keep _ (ShelfM.content_of_ensureTable hmade)
  | showTables => exact Moves.bind (ShelfM.moves_read _) (fun _ => .get_bind fun _ => .refl) s

/-- What all changes of a statement keep the statement keeps. -/
theorem execute_keeps {P : Shelf → Prop} {statement : Statement}
    (hchange : ∀ s s', Orderly auto s → Change rules params s s' statement → P s → P s')
    (hs : Orderly auto s) (hP : P s) (stamp : ℕ) :
    Orderly auto ((execute rules stamp statement params).run s).2 ∧
      P ((execute rules stamp statement params).run s).2 := by
  have hedits : Relation.ReflTransGen (Edit rules params statement s.autoIncrement) s
      ((execute rules stamp statement params).run s).2 := edits_execute stamp statement s
  rw [hs.numbered] at hedits
  -- Each single change says what it does of orderly shelves only, so the induction carries both.
  generalize ((execute rules stamp statement params).run s).2 = s' at hedits ⊢
  induction hedits with
  | refl => exact ⟨hs, hP⟩
  | tail _ hedit ih =>
    obtain ⟨horderly, hkept⟩ := ih
    obtain ⟨horderly', hstep⟩ := hedit horderly
    exact ⟨horderly', hchange _ _ horderly hstep hkept⟩

/-! ## Runs of statements -/

/-- A text to carry out, with its params and the moment at which it is carried out. -/
structure Request where
  stamp : ℕ
  sql : String
  params : Params
  proper : params.Proper

namespace Request
variable {q : Request}

/-- A text without params. -/
def plain (sql : String) : Request := ⟨1, sql, .none, fun _ h => absurd h List.not_mem_nil⟩

/-- The statement of a text, if it can be read. -/
def statement? (q : Request) : Option Statement := (parse q.sql).toOption

def outcome (rules : Rules) (s : Shelf) (q : Request) : Except Error Result :=
  ((executeText rules q.stamp q.sql q.params).run s).1

def after (rules : Rules) (s : Shelf) (q : Request) : Shelf :=
  ((executeText rules q.stamp q.sql q.params).run s).2

/-- The shelf after some texts, carried out one after another whatever comes of each. -/
def afterAll (rules : Rules) (s : Shelf) (requests : List Request) : Shelf :=
  requests.foldl (after rules) s

theorem afterAll_cons (rules : Rules) (s : Shelf) (q : Request) (requests : List Request) :
    afterAll rules s (q :: requests) = afterAll rules (q.after rules s) requests := by
  rw [afterAll, List.foldl_cons, afterAll]

theorem afterAll_append (rules : Rules) (s : Shelf) (first second : List Request) :
    afterAll rules s (first ++ second) = afterAll rules (afterAll rules s first) second :=
  List.foldl_append

theorem run_executeText {statement : Statement} (h : q.statement? = some statement) (s : Shelf) :
    (executeText rules q.stamp q.sql q.params).run s =
      (execute rules q.stamp statement q.params).run s := by
  rw [statement?] at h
  cases hparse : parse q.sql with
  | error e =>
    rw [hparse] at h
    exact absurd h (by simp [Except.toOption])
  | ok there =>
    rw [hparse] at h
    obtain rfl := Option.some.inj h
    rw [executeText, hparse]

/-- A text that is no statement changes nothing. -/
theorem after_of_unread (h : q.statement? = none) (s : Shelf) : q.after rules s = s := by
  rw [statement?] at h
  rw [after, executeText]
  cases hparse : parse q.sql with
  | error e => cases e <;> rfl
  | ok statement =>
    rw [hparse] at h
    exact absurd h (by simp [Except.toOption])

/-- What all changes of a text keep the text keeps. -/
theorem after_keeps {P : Shelf → Prop}
    (hchange : ∀ statement, q.statement? = some statement → ∀ s s', Orderly auto s →
      Change rules q.params s s' statement → P s → P s')
    (hs : Orderly auto s) (hP : P s) : Orderly auto (q.after rules s) ∧ P (q.after rules s) := by
  cases hstatement : q.statement? with
  | none =>
    rw [after_of_unread hstatement]
    exact ⟨hs, hP⟩
  | some statement =>
    rw [after, run_executeText hstatement]
    exact execute_keeps (hchange statement hstatement) hs hP q.stamp

theorem orderly_after (hs : Orderly auto s) (q : Request) : Orderly auto (q.after rules s) :=
  (after_keeps (P := fun _ => True) (fun _ _ _ _ _ _ _ => trivial) hs trivial).1

end Request

end Query

end RecordShelf

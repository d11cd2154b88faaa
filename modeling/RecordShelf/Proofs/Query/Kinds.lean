import RecordShelf.Proofs.Query.Failures
import RecordShelf.Proofs.Sql.LeadingWords

/-!
# Kinds of statements and results

What a text gives when it is carried out has the form of its kind: rows for SELECT, names for SHOW
TABLES, a count for a write. Its leading words decide the kind, whether or not the rest can be read,
and only a text whose leading words are no known statement fails as unsupported.
-/

namespace RecordShelf

/-- The error of a text that is no known statement. -/
def Error.IsUnsupported : Error → Prop
  | .unsupportedQuery _ => True
  | _ => False

/-- The results that a statement of a kind has. -/
def Query.Result.IsOf : Sql.StatementKind → Query.Result → Prop
  | .select, .rows _ => True
  | .showTables, .tables _ _ => True
  | .insert, .affected _ _ | .update, .affected _ _ | .delete, .affected _ _
  | .createTable, .affected _ _ => True
  | _, _ => False

theorem Error.IsIo.not_unsupported {e : Error} (h : e.IsIo) : ¬ e.IsUnsupported := by
  cases e with
  | io => exact id
  | _ => exact h.elim

/-! ## Errors of the shelf -/

namespace Shelf
variable {s : Shelf} {table key : String} {e : Error}

theorem supported_name {result : Except NameFault Unit}
    (h : result.mapError .name = .error e) : ¬ e.IsUnsupported := by
  cases result with
  | ok => cases h
  | error fault =>
    cases h
    exact id

theorem supported_checkTable (h : checkTable table = .error e) : ¬ e.IsUnsupported :=
  supported_name h

theorem supported_checkRecord (h : checkRecord table key = .error e) : ¬ e.IsUnsupported := by
  rcases error_of_bind h with hkey | ⟨_, -, htable⟩
  · exact supported_name hkey
  · exact supported_checkTable htable

theorem supported_get (h : s.get table key = .error e) : ¬ e.IsUnsupported := by
  rcases error_of_bind h with hcheck | ⟨_, -, hread⟩
  · exact supported_checkRecord hcheck
  · split at hread
    · cases hread
    · cases hread
    · cases hread
      exact id

theorem supported_scan (h : s.scan table = .error e) : ¬ e.IsUnsupported := by
  rcases error_of_bind h with hcheck | ⟨_, -, hread⟩
  · exact supported_checkTable hcheck
  · split at hread
    · cases hread
    · cases hread
      exact id
    · rename_i entries _
      cases hrows : scanEntries (s.isAutoIncrement table) entries with
      | ok rows =>
        rw [hrows] at hread
        cases hread
      | error name =>
        rw [hrows] at hread
        cases hread
        exact id

theorem supported_tableExists (h : s.tableExists table = .error e) : ¬ e.IsUnsupported := by
  rcases error_of_bind h with hcheck | ⟨_, -, hread⟩
  · exact supported_checkTable hcheck
  · cases hread

theorem supported_tables (h : s.tables = .error e) : ¬ e.IsUnsupported := by
  rw [tables] at h
  split at h
  · cases h
  · cases h
    exact id
  · cases h

end Shelf

/-- The action never fails as an unsupported statement does. -/
abbrev Supported {α : Type} (act : ShelfM α) : Prop := Raises (fun e => ¬ e.IsUnsupported) act

namespace ShelfM
variable {table key : String}

theorem supported_step {action : IoAction} {path : String} {f : Shelf → Except IoCause Shelf} :
    Supported (step action path f) :=
  raises_step.mono fun _ => Error.IsIo.not_unsupported

theorem supported_get (table key : String) : Supported (get table key) :=
  raises_read fun _ _ => Shelf.supported_get

theorem supported_scan (table : String) : Supported (scan table) :=
  raises_read fun _ _ => Shelf.supported_scan

theorem supported_ensureTable (table : String) : Supported (ensureTable table) :=
  .bind (raises_read fun _ _ => Shelf.supported_checkTable) fun _ => .bind .get fun _ =>
    supported_step

theorem supported_put (table key : String) (r : Record) : Supported (put table key r) := by
  refine .bind (raises_read fun _ _ => Shelf.supported_checkRecord) fun _ =>
    .bind (supported_ensureTable table) fun _ => .bind ?_ fun temporary => .bind .get fun _ =>
      .bind supported_step fun _ => (raises_publish _ _ _).mono fun _ => Error.IsIo.not_unsupported
  exact fun _ _ _ h => absurd (Prod.mk.inj h).1 (by simp)

theorem supported_remove (table key : String) : Supported (remove table key) := by
  refine .bind (raises_read fun _ _ => Shelf.supported_checkRecord) fun _ => .bind .get fun s => ?_
  split
  · exact .bind (fun _ _ _ h => absurd (Prod.mk.inj h).1 (by simp)) fun _ => .pure _
  · exact .pure _
  · exact .throw id

theorem supported_putGenerated (table : String) (stamp : ℕ) (r : Record) :
    Supported (putGenerated table stamp r) :=
  .bind (supported_ensureTable table) fun _ => .bind .get fun _ => .bind supported_step fun _ =>
    .pure _

theorem supported_nextId (table : String) : Supported (nextId table) :=
  .bind (supported_get table counterKey) fun _ => .bind (supported_put table counterKey _) fun _ =>
    .pure _

end ShelfM

namespace Query
open Sql
variable {rules : Rules} {params : Params}

/-! ## Statements -/

/-- Carrying out a statement of a kind gives a result of that kind, or fails otherwise than as an
unsupported statement. -/
abbrev Answers (kind : StatementKind) (act : ShelfM Result) : Prop :=
  Gives (Result.IsOf kind) (fun e => ¬ e.IsUnsupported) act

theorem supported_insertRecord {i : Insert} {e : Error} (h : insertRecord i params = .error e) :
    ¬ e.IsUnsupported := by
  unfold insertRecord at h
  split at h
  all_goals cases h
  exact id

theorem answers_insertNumbered (table : String) (r : Record) :
    Answers .insert (insertNumbered table r) :=
  .bind (ShelfM.supported_nextId table) fun _ => .bind (ShelfM.supported_put table _ _) fun _ =>
    .pure trivial

theorem answers_insertUnder (table : String) (onDuplicate : Bool) (identity : Identity)
    (r : Record) : Answers .insert (insertUnder table onDuplicate identity r) :=
  .bind (ShelfM.supported_get table _) fun _ => .bind (ShelfM.supported_put table _ _) fun _ =>
    .pure trivial

theorem answers_executeInsert (stamp : ℕ) (i : Insert) :
    Answers .insert (executeInsert rules stamp i params) := by
  refine .bind (ShelfM.raises_read fun _ _ => supported_insertRecord) fun r => ?_
  split_ifs
  on_goal 1 => refine .bind (.throw id) fun _ => ?_
  -- what is stored, also behind the refusal of an empty record
  all_goals
    refine .bind .get fun shelf => ?_
    split_ifs
    · exact answers_insertNumbered i.table r
    · cases rules.identity.resolve i.table r with
      | none => exact .bind (ShelfM.supported_putGenerated i.table stamp r) fun _ => .pure trivial
      | some identity => exact answers_insertUnder i.table i.onDuplicate identity r

theorem supported_updateKey (table : String) (predicates : List Predicate)
    (assignments : List (String × Json)) (key : String) :
    Supported (updateKey rules table predicates assignments key) := by
  refine .bind (ShelfM.supported_get table key) fun found => ?_
  cases found with
  | none => exact .pure _
  | some r =>
    dsimp only
    split_ifs
    · exact .bind (ShelfM.supported_put table key _) fun _ => .pure _
    · exact .pure _

theorem supported_deleteKey (table : String) (predicates : List Predicate) (key : String) :
    Supported (deleteKey rules table predicates key) := by
  refine .bind (ShelfM.supported_get table key) fun found => ?_
  cases found with
  | none => exact .pure _
  | some r =>
    dsimp only
    split_ifs
    · exact ShelfM.supported_remove table key
    · exact .pure _

theorem supported_matchingKeys (table : String) (predicates : List Predicate) :
    Supported (matchingKeys rules table predicates) :=
  .bind (ShelfM.supported_scan table) fun _ => .pure _

theorem answers_executeUpdate (u : Update) : Answers .update (executeUpdate rules u params) := by
  refine .bind (ShelfM.raises_read fun _ _ => Shelf.supported_tableExists) fun made => ?_
  split_ifs
  · exact .bind (supported_matchingKeys u.table _) fun _ =>
      .bind (raises_countKeys fun key _ => supported_updateKey u.table _ _ key) fun _ => .pure trivial
  · exact .pure trivial

theorem answers_executeDelete (d : Delete) : Answers .delete (executeDelete rules d params) :=
  .bind (supported_matchingKeys d.table _) fun _ =>
    .bind (raises_countKeys fun key _ => supported_deleteKey d.table _ key) fun _ => .pure trivial

theorem answers_execute (stamp : ℕ) (statement : Statement) :
    Answers statement.kind (execute rules stamp statement params) := by
  cases statement with
  | select q => exact .bind (ShelfM.supported_scan q.table) fun _ => .pure trivial
  | insert i => exact answers_executeInsert stamp i
  | update u => exact answers_executeUpdate u
  | delete d => exact answers_executeDelete d
  | createTable c => exact .bind (ShelfM.supported_ensureTable c.name) fun _ => .pure trivial
  | showTables =>
    exact .bind (ShelfM.raises_read fun _ _ => Shelf.supported_tables) fun _ => .bind .get fun _ =>
      .pure trivial

theorem isOf_empty (kind : StatementKind) : (Result.empty kind).IsOf kind := by
  cases kind <;> trivial

/-! ## Texts -/

theorem answers_executeText {sql : String} {kind : StatementKind} (h : classify sql = some kind)
    (stamp : ℕ) : Answers kind (executeText rules stamp sql params) := by
  rcases parse_of_classify h with ⟨statement, hparse, rfl⟩ | ⟨cause, hparse⟩
  · rw [executeText, hparse]
    exact answers_execute stamp statement
  · rw [executeText, hparse]
    exact .pure (isOf_empty kind)

theorem run_executeText_unsupported {sql : String} (h : classify sql = none) (stamp : ℕ)
    (s : Shelf) : (executeText rules stamp sql params).run s =
      (.error (.unsupportedQuery (String.ofList ((bareText sql.toList).take 40))), s) := by
  rw [executeText, parse_of_classify_none h]
  rfl

/-- The leading words of a text decide how it is read and what it can give. Without a kind it is no
statement and fails as unsupported; of a kind it is a statement of that kind or a malformed one, and
whatever it is carried out with and on, it does not fail as unsupported, and a result has the form of
the kind. -/
theorem kind_decides (sql : String) :
    (classify sql = none ↔ ∃ text, parse sql = .error (.unsupported text)) ∧
    (∀ kind, classify sql = some kind →
      (∃ s, parse sql = .ok s ∧ s.kind = kind) ∨
        ∃ cause, parse sql = .error (.malformed kind cause)) ∧
    ∀ (rules : Rules) (stamp : ℕ) (params : Params) (s : Shelf),
      (classify sql = none ↔ ∃ text,
        ((executeText rules stamp sql params).run s).1 = .error (.unsupportedQuery text)) ∧
      ∀ kind, classify sql = some kind → ∀ result,
        ((executeText rules stamp sql params).run s).1 = .ok result → result.IsOf kind := by
  have hkind : ∀ kind, classify sql = some kind →
      (∃ s, parse sql = .ok s ∧ s.kind = kind) ∨
        ∃ cause, parse sql = .error (.malformed kind cause) := fun kind => parse_of_classify
  refine ⟨⟨fun h => ⟨_, parse_of_classify_none h⟩, ?_⟩, hkind, fun rules stamp params s => ⟨?_, ?_⟩⟩
  · rintro ⟨text, hparse⟩
    cases hclass : classify sql with
    | none => rfl
    | some kind =>
      rcases hkind kind hclass with ⟨_, hread, -⟩ | ⟨_, hread⟩
      · exact nomatch hread.symm.trans hparse
      · exact nomatch hread.symm.trans hparse
  · constructor
    · intro h
      exact ⟨_, congrArg Prod.fst (run_executeText_unsupported h stamp s)⟩
    · rintro ⟨text, hrun⟩
      cases hclass : classify sql with
      | none => rfl
      | some kind =>
        have hanswers : Answers kind (executeText rules stamp sql params) :=
          answers_executeText hclass stamp
        generalize executeText rules stamp sql params = act at hanswers hrun
        exact absurd trivial (hanswers.error s _ _ (Prod.ext hrun rfl))
  · intro kind hclass result hrun
    have hanswers : Answers kind (executeText rules stamp sql params) :=
      answers_executeText hclass stamp
    generalize executeText rules stamp sql params = act at hanswers hrun
    exact hanswers.value s result _ (Prod.ext hrun rfl)

/-- A SELECT that breaks off has rows all the same, and a misspelt one is no statement at all. -/
theorem kind_decides_notes :
    let rules : Rules := ⟨⟨["id"], []⟩, ⟨[], []⟩⟩
    (∃ rows, (executeText rules 0 " select * from" .none).run notes = (.ok (.rows rows), notes)) ∧
    ∃ text, ((executeText rules 0 "SELEC * FROM notes" .none).run notes).1 =
      .error (.unsupportedQuery text) := by
  intro rules
  refine ⟨?_, ((kind_decides _).2.2 rules 0 .none notes).1.mp (by decide +kernel)⟩
  have hrun : ∃ result, (executeText rules 0 " select * from" .none).run notes = (.ok result, notes) :=
    ⟨_, rfl⟩
  obtain ⟨result, hrun⟩ := hrun
  have hrows : result.IsOf .select :=
    ((kind_decides _).2.2 rules 0 .none notes).2 .select (by decide +kernel) result
      (congrArg Prod.fst hrun)
  cases result with
  | rows rows => exact ⟨rows, hrun⟩
  | _ => exact hrows.elim

end Query

end RecordShelf

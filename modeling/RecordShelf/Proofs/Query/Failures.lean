import RecordShelf.Proofs.Names
import RecordShelf.Proofs.Query.Changes
import RecordShelf.Proofs.Query.Delete

/-!
# Failed statements and statements that only read

Names and records are checked at different points of each statement, but always before the first
change: behind it only the directory tree refuses anything. So a statement that is refused for what it
says leaves the shelf as it was, and so does one that cannot be read or that only reads.
-/

namespace RecordShelf

/-- An error that comes from what a statement says. -/
def Error.IsRefusal : Error → Prop
  | .unsupportedQuery _ | .insertData .. | .name _ => True
  | _ => False

/-- A statement that only reads. -/
def Sql.Statement.IsReading : Sql.Statement → Prop
  | .select _ | .showTables => True
  | _ => False

namespace Shelf
variable {s : Shelf} {table key : String} {e : Error}

theorem isRefusal_of_mapError {x : Except NameFault Unit} (h : x.mapError .name = .error e) :
    e.IsRefusal := by
  cases x with
  | ok _ => exact nomatch h
  | error fault =>
    obtain rfl := Except.error.inj h
    trivial

theorem isRefusal_of_checkTable (h : checkTable table = .error e) : e.IsRefusal :=
  isRefusal_of_mapError h

theorem isRefusal_of_checkRecord (h : checkRecord table key = .error e) : e.IsRefusal := by
  rw [checkRecord] at h
  cases hkey : (Names.check .key key).mapError Error.name with
  | ok _ =>
    rw [hkey, ok_bind] at h
    exact isRefusal_of_checkTable h
  | error fault =>
    rw [hkey, error_bind] at h
    obtain rfl := Except.error.inj h
    exact isRefusal_of_mapError hkey

theorem get_error (h : s.get table key = .error e) : e.IsIo ∨ e.IsRefusal := by
  cases hcheck : checkRecord table key with
  | error fault =>
    rw [get, hcheck, error_bind] at h
    obtain rfl := Except.error.inj h
    exact .inr (isRefusal_of_checkRecord hcheck)
  | ok _ =>
    obtain ⟨hkey, htable⟩ := isKey_of_checkRecord hcheck
    exact .inl (ShelfM.raises_get hkey htable s e s (by rw [ShelfM.get, ShelfM.run_read, h]))

/-- A record is read only under valid names. -/
theorem isKey_of_get {found : Option Record} (h : s.get table key = .ok found) :
    Names.isKey key = true ∧ Names.isTable table = true := by
  obtain ⟨_, hcheck, -⟩ := ok_of_bind h
  exact isKey_of_checkRecord hcheck

theorem scan_error (h : s.scan table = .error e) : e.IsIo ∨ e.IsRefusal := by
  rw [scan] at h
  cases hcheck : checkTable table with
  | error fault =>
    rw [hcheck, error_bind] at h
    obtain rfl := Except.error.inj h
    exact .inr (isRefusal_of_checkTable hcheck)
  | ok _ =>
    rw [hcheck, ok_bind] at h
    split at h
    · cases h
    · obtain rfl := Except.error.inj h
      exact .inl trivial
    · cases hrows : scanEntries (s.isAutoIncrement table) _ with
      | ok rows =>
        rw [hrows] at h
        cases h
      | error name =>
        rw [hrows] at h
        obtain rfl := Except.error.inj h
        exact .inl trivial

theorem tableExists_error (h : s.tableExists table = .error e) : e.IsRefusal := by
  rw [tableExists] at h
  cases hcheck : checkTable table with
  | error fault =>
    rw [hcheck, error_bind] at h
    obtain rfl := Except.error.inj h
    exact isRefusal_of_checkTable hcheck
  | ok _ =>
    rw [hcheck, ok_bind] at h
    exact nomatch h

theorem tables_error (h : s.tables = .error e) : e.IsIo := by
  rw [tables] at h
  split at h
  · exact nomatch h
  · obtain rfl := Except.error.inj h
    trivial
  · exact nomatch h

end Shelf

namespace ShelfM
open RecordShelf.Shelf
variable {s : Shelf} {table key : String}

theorem spares_read {α : Type} {f : Shelf → Except Error α}
    (hf : ∀ e, f s = .error e → e.IsIo ∨ e.IsRefusal) :
    Spares Error.IsIo Error.IsRefusal (read f) s := by
  intro e s' h
  rw [run_read] at h
  obtain ⟨he, rfl⟩ := Prod.mk.inj h
  exact (hf e he).imp_right fun hrefused => ⟨hrefused, rfl⟩

theorem spares_ensureTable (table : String) (s : Shelf) :
    Spares Error.IsIo Error.IsRefusal (ensureTable table) s :=
  .bind (spares_read fun _ he => .inr (isRefusal_of_checkTable he)) fun _ _ _ =>
    .inr (.bind .get fun _ => raises_step)

theorem spares_putGenerated (table : String) (stamp : ℕ) (r : Record) (s : Shelf) :
    Spares Error.IsIo Error.IsRefusal (putGenerated table stamp r) s :=
  .bind (spares_ensureTable table s) fun _ _ _ =>
    .inr (.bind .get fun _ => .bind raises_step fun _ => .pure _)

theorem spares_nextId (table : String) (s : Shelf) :
    Spares Error.IsIo Error.IsRefusal (nextId table) s := by
  refine .bind (spares_read fun _ he => get_error he) fun counter s' hget => .inr ?_
  obtain ⟨hcounter, htable⟩ := isKey_of_get (run_read_ok hget).1
  exact .bind (raises_put hcounter htable _) fun _ => .pure _

theorem isTable_of_nextId {s' : Shelf} {id : Int64} (h : (nextId table).run s = (.ok id, s')) :
    Names.isTable table = true := by
  obtain ⟨_, _, hget, -⟩ := run_bind_ok h
  exact (isKey_of_get (run_read_ok hget).1).2

theorem raises_remove (hkey : Names.isKey key = true) (htable : Names.isTable table = true) :
    Raises Error.IsIo (remove table key) := by
  refine .bind (raises_read fun _ e he => ?_) fun _ s e s' h => ?_
  · rw [checkRecord_eq hkey htable] at he
    exact nomatch he
  · rw [run_bind_of_ok (run_getThe s)] at h
    cases hremove : s.removeFile table (fileName key) with
    | ok removed =>
      rw [hremove] at h
      exact nomatch (Prod.mk.inj h).1
    | error cause =>
      rw [hremove] at h
      cases cause with
      | missing => exact nomatch (Prod.mk.inj h).1
      | _ =>
        obtain rfl := Except.error.inj (Prod.mk.inj h).1
        trivial

end ShelfM

namespace Query
open Sql RecordShelf.Shelf
variable {rules : Rules} {params : Params} {s : Shelf} {table : String} {predicates : List Predicate}

/-! ## INSERT -/

theorem insertRecord_error {i : Insert} {e : Error} (h : insertRecord i params = .error e) :
    e.IsRefusal := by
  unfold insertRecord at h
  split at h
  all_goals cases h
  trivial

theorem spares_insertUnder (table : String) (onDuplicate : Bool) (identity : Identity) (r : Record)
    (s : Shelf) :
    Spares Error.IsIo Error.IsRefusal (insertUnder table onDuplicate identity r) s := by
  refine .bind (ShelfM.spares_read fun _ he => get_error he) fun existing s' hget => .inr ?_
  obtain ⟨hkey, htable⟩ := isKey_of_get (ShelfM.run_read_ok hget).1
  exact .bind (ShelfM.raises_put hkey htable _) fun _ => .pure _

/-- The counter's number is a key, so that nothing is refused once the counter has advanced. -/
theorem spares_insertNumbered (table : String) (r : Record) (s : Shelf) :
    Spares Error.IsIo Error.IsRefusal (insertNumbered table r) s := by
  refine .bind (ShelfM.spares_nextId table s) fun id s' hnext => .inr ?_
  exact .bind (ShelfM.raises_put (Names.isKey_decimalInt id) (ShelfM.isTable_of_nextId hnext) _)
    fun _ => .pure _

theorem spares_executeInsert (stamp : ℕ) (i : Insert) (params : Params) (s : Shelf) :
    Spares Error.IsIo Error.IsRefusal (executeInsert rules stamp i params) s := by
  intro e s' h
  rw [run_executeInsert] at h
  cases hrecord : insertRecord i params with
  | error refusal =>
    rw [hrecord] at h
    cases h
    exact .inr ⟨insertRecord_error hrecord, rfl⟩
  | ok r =>
    rw [hrecord] at h
    dsimp only at h
    split_ifs at h
    · cases h
      exact .inr ⟨trivial, rfl⟩
    · exact spares_insertNumbered i.table r s e s' h
    · cases hidentity : rules.identity.resolve i.table r with
      | none =>
        rw [hidentity] at h
        exact (Spares.bind (ShelfM.spares_putGenerated i.table stamp r s) fun _ _ _ =>
          .inr (.pure _)) e s' h
      | some identity =>
        rw [hidentity] at h
        exact spares_insertUnder i.table i.onDuplicate identity r s e s' h

/-! ## UPDATE and DELETE -/

theorem raises_countKeys {kind : Error → Prop} {act : String → ShelfM Bool} {keys : List String}
    (h : ∀ key ∈ keys, Raises kind (act key)) : Raises kind (countKeys act keys) := by
  induction keys with
  | nil => exact .pure _
  | cons key keys ih =>
    obtain ⟨hkey, hkeys⟩ := List.forall_mem_cons.1 h
    exact .bind hkey fun _ => .bind (ih hkeys) fun _ => .pure _

section
variable {key : String} (hkey : Names.isKey key = true) (htable : Names.isTable table = true)
include hkey htable

theorem raises_updateKey (assignments : List (String × Json)) :
    Raises Error.IsIo (updateKey rules table predicates assignments key) := by
  refine .bind (ShelfM.raises_get hkey htable) fun found => ?_
  cases found with
  | none => exact .pure _
  | some r =>
    dsimp only
    split_ifs
    · exact .bind (ShelfM.raises_put hkey htable _) fun _ => .pure _
    · exact .pure _

theorem raises_deleteKey : Raises Error.IsIo (deleteKey rules table predicates key) := by
  refine .bind (ShelfM.raises_get hkey htable) fun found => ?_
  cases found with
  | none => exact .pure _
  | some r =>
    dsimp only
    split_ifs
    · exact ShelfM.raises_remove hkey htable
    · exact .pure _

end

theorem spares_matchingKeys (s : Shelf) :
    Spares Error.IsIo Error.IsRefusal (matchingKeys rules table predicates) s :=
  .bind (ShelfM.spares_read fun _ he => scan_error he) fun _ _ _ => .inr (.pure _)

/-- The keys of a listing are valid, and so is the name of the table. -/
theorem isKey_of_matchingKeys {keys : List String} {s' : Shelf}
    (h : (matchingKeys rules table predicates).run s = (.ok keys, s')) :
    Names.isTable table = true ∧ ∀ key ∈ keys, Names.isKey key = true := by
  obtain ⟨rows, s₁, hscan, hreturn⟩ := run_bind_ok h
  cases hreturn
  obtain ⟨htable, hrows⟩ := scan_ok (ShelfM.run_read_ok hscan).1
  refine ⟨htable, fun key hkey => ?_⟩
  obtain ⟨row, hrow, rfl⟩ := List.mem_map.1 hkey
  have hmem : row ∈ rows := List.mem_of_mem_filter hrow
  rcases hrows with ⟨-, rfl⟩ | ⟨entries, -, hentries⟩
  · exact absurd hmem List.not_mem_nil
  · exact (shows_of_scanEntries hentries row hmem).1

theorem spares_executeUpdate (u : Update) (params : Params) (s : Shelf) :
    Spares Error.IsIo Error.IsRefusal (executeUpdate rules u params) s := by
  refine .bind (ShelfM.spares_read fun _ he => .inr (tableExists_error he)) fun made s' hmade =>
    .inl ⟨(ShelfM.run_read_ok hmade).2, ?_⟩
  split_ifs
  · refine .bind (spares_matchingKeys s) fun keys s' hkeys => .inr ?_
    obtain ⟨htable, hvalid⟩ := isKey_of_matchingKeys hkeys
    exact .bind (raises_countKeys fun key hkey => raises_updateKey (hvalid key hkey) htable _)
      fun _ => .pure _
  · exact .pure _ s

theorem spares_executeDelete (d : Delete) (params : Params) (s : Shelf) :
    Spares Error.IsIo Error.IsRefusal (executeDelete rules d params) s := by
  refine .bind (spares_matchingKeys s) fun keys s' hkeys => .inr ?_
  obtain ⟨htable, hvalid⟩ := isKey_of_matchingKeys hkeys
  exact .bind (raises_countKeys fun key hkey => raises_deleteKey (hvalid key hkey) htable)
    fun _ => .pure _

/-! ## Whole statements -/

theorem spares_execute (stamp : ℕ) (statement : Statement) (params : Params) (s : Shelf) :
    Spares Error.IsIo Error.IsRefusal (execute rules stamp statement params) s := by
  cases statement with
  | select q => exact .bind (ShelfM.spares_read fun _ he => scan_error he) fun _ _ _ => .inr (.pure _)
  | insert i => exact spares_executeInsert stamp i params s
  | update u => exact spares_executeUpdate u params s
  | delete d => exact spares_executeDelete d params s
  | createTable c => exact .bind (ShelfM.spares_ensureTable c.name s) fun _ _ _ => .inr (.pure _)
  | showTables =>
    exact .bind (ShelfM.spares_read fun _ he => .inl (tables_error he)) fun _ _ _ =>
      .inr (.bind .get fun _ => .pure _)

theorem spares_executeText (stamp : ℕ) (sql : String) (params : Params) (s : Shelf) :
    Spares Error.IsIo Error.IsRefusal (executeText rules stamp sql params) s := by
  rw [executeText]
  split
  · exact spares_execute stamp _ params s
  · exact .pure _ s
  · exact .throw trivial s

theorem run_executeText_malformed {stamp : ℕ} {sql : String} {kind : StatementKind}
    {cause : Malformation} (h : parse sql = .error (.malformed kind cause)) :
    (executeText rules stamp sql params).run s = (.ok (.empty kind), s) := by
  rw [executeText, h]
  rfl

theorem shelf_executeText_reading {stamp : ℕ} {sql : String} {statement : Statement}
    (h : parse sql = .ok statement) (hreading : statement.IsReading) :
    ((executeText rules stamp sql params).run s).2 = s := by
  have hmoves : Moves (fun _ _ => False) (executeText rules stamp sql params) := by
    rw [executeText, h]
    cases statement with
    | select q => exact .bind (ShelfM.moves_read _) fun _ => .pure _
    | showTables => exact .bind (ShelfM.moves_read _) fun _ => .get_bind fun _ => .refl
    | _ => exact hreading.elim
  exact hmoves.keeps (P := fun s' => s' = s) (fun _ _ hstep => hstep.elim) rfl

/-- A text that fails otherwise than by the directory tree fails as an unsupported statement, a record
that cannot be inserted or an invalid name, and leaves the whole shelf as it was: its files and
directories, its counters and the names of its temporary files. So does a statement that cannot be read,
which does nothing, and so do SELECT and SHOW TABLES, however they end. -/
theorem refused_leaves_shelf (rules : Rules) (stamp : ℕ) (sql : String) (params : Params) (s : Shelf) :
    (∀ e s', (executeText rules stamp sql params).run s = (.error e, s') →
      e.IsIo ∨ e.IsRefusal ∧ s' = s) ∧
    (∀ kind cause, parse sql = .error (.malformed kind cause) →
      (executeText rules stamp sql params).run s = (.ok (.empty kind), s)) ∧
    ∀ statement, parse sql = .ok statement → statement.IsReading →
      ((executeText rules stamp sql params).run s).2 = s :=
  ⟨spares_executeText stamp sql params s, fun _ _ => run_executeText_malformed,
    fun _ => shelf_executeText_reading⟩

theorem refused_leaves_notes :
    let rules : Rules := ⟨⟨["id"], []⟩, ⟨[], []⟩⟩
    (executeText rules 0 "INSERT INTO notes SET ?"
      (.positional [.object [("id", .string "a/b")]])).run notes =
        (.error (.name ⟨.key, "a/b", .traversal⟩), notes) ∧
    (executeText rules 0 "SELECT * FROM" .none).run notes = (.ok (.empty .select), notes) ∧
    ((executeText rules 0 "SHOW TABLES" .none).run notes).2 = notes := by
  intro rules
  have hrun : ∃ s', (executeText rules 0 "INSERT INTO notes SET ?"
      (.positional [.object [("id", .string "a/b")]])).run notes =
        (.error (.name ⟨.key, "a/b", .traversal⟩), s') := ⟨_, rfl⟩
  obtain ⟨s', hrun⟩ := hrun
  refine ⟨?_, ?_, ?_⟩
  · obtain ⟨-, hsame⟩ := ((refused_leaves_shelf _ _ _ _ notes).1 _ s' hrun).resolve_left id
    rw [hrun, hsame]
  · exact (refused_leaves_shelf _ _ _ _ notes).2.1 .select .endOfInput (by decide)
  · exact (refused_leaves_shelf _ _ _ _ notes).2.2 .showTables (by decide) trivial

end Query

end RecordShelf

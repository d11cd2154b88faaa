import RecordShelf.Proofs.Shelf.Steps
import RecordShelf.Query.Execute

/-!
# Steps of a statement

A statement of any kind changes a shelf by single steps, whether it succeeds or fails on the way.
-/

namespace RecordShelf

namespace Query
open RecordShelf.Shelf Sql
variable {rules : Rules} {table : String} {predicates : List Predicate}

theorem moves_insertUnder (table : String) (onDuplicate : Bool) (identity : Identity) (r : Record) :
    Moves Step (insertUnder table onDuplicate identity r) :=
  .bind (ShelfM.moves_read _) fun _ => .bind (ShelfM.moves_put table _ _) fun _ => .pure _

theorem moves_insertNumbered (table : String) (r : Record) : Moves Step (insertNumbered table r) :=
  .bind (ShelfM.moves_nextId table) fun _ => .bind (ShelfM.moves_put table _ _) fun _ => .pure _

theorem moves_executeInsert (stamp : ℕ) (s : Insert) (params : Params) :
    Moves Step (executeInsert rules stamp s params) := by
  refine .bind (ShelfM.moves_read _) fun r => ?_
  refine .ite (.bind (.throw _) fun _ => ?_) ?_
  all_goals
    refine .get_bind fun shelf => Moves.ite (moves_insertNumbered s.table r) ?_ shelf
    cases rules.identity.resolve s.table r with
    | none => exact .bind (ShelfM.moves_putGenerated s.table stamp r) fun _ => .pure _
    | some identity => exact moves_insertUnder s.table s.onDuplicate identity r

theorem moves_countKeys {step : Shelf → Shelf → Prop} {act : String → ShelfM Bool}
    {keys : List String} (h : ∀ key ∈ keys, Moves step (act key)) :
    Moves step (countKeys act keys) := by
  induction keys with
  | nil => exact .pure _
  | cons key keys ih =>
    obtain ⟨hkey, hkeys⟩ := List.forall_mem_cons.1 h
    exact .bind hkey fun _ => .bind (ih hkeys) fun _ => .pure _

theorem moves_updateKey (assignments : List (String × Json)) (key : String) :
    Moves Step (updateKey rules table predicates assignments key) := by
  refine .bind (ShelfM.moves_read _) fun found => ?_
  cases found with
  | none => exact .pure _
  | some r => exact .ite (.bind (ShelfM.moves_put table key _) fun _ => .pure _) (.pure _)

theorem moves_deleteKey (key : String) : Moves Step (deleteKey rules table predicates key) := by
  refine .bind (ShelfM.moves_read _) fun found => ?_
  cases found with
  | none => exact .pure _
  | some r => exact .ite (ShelfM.moves_remove table key) (.pure _)

theorem moves_matchingKeys {step : Shelf → Shelf → Prop} :
    Moves step (matchingKeys rules table predicates) :=
  .bind (ShelfM.moves_read _) fun _ => .pure _

theorem moves_executeUpdate (s : Update) (params : Params) :
    Moves Step (executeUpdate rules s params) := by
  refine .bind (ShelfM.moves_read _) fun made => .ite ?_ (.pure _)
  exact .bind moves_matchingKeys fun _ =>
    .bind (moves_countKeys fun key _ => moves_updateKey _ key) fun _ => .pure _

theorem moves_executeDelete (s : Delete) (params : Params) :
    Moves Step (executeDelete rules s params) :=
  .bind moves_matchingKeys fun _ =>
    .bind (moves_countKeys fun key _ => moves_deleteKey key) fun _ => .pure _

/-- Whatever a statement does, it does by single steps. -/
theorem moves_execute (stamp : ℕ) (statement : Statement) (params : Params) :
    Moves Step (execute rules stamp statement params) := by
  cases statement with
  | select s => exact .bind (ShelfM.moves_read _) fun _ => .pure _
  | insert s => exact moves_executeInsert stamp s params
  | update s => exact moves_executeUpdate s params
  | delete s => exact moves_executeDelete s params
  | createTable s => exact .bind (ShelfM.moves_ensureTable s.name) fun _ => .pure _
  | showTables => exact .bind (ShelfM.moves_read _) fun _ => .get_bind fun _ => .refl

theorem moves_executeText (stamp : ℕ) (sql : String) (params : Params) :
    Moves Step (executeText rules stamp sql params) := by
  rw [executeText]
  split
  · exact moves_execute stamp _ params
  · exact .pure _
  · exact .throw _

theorem moves_executePrepared (stamp : ℕ) (sql : String) (params : Params) :
    Moves Step (executePrepared rules stamp sql params) := by
  rw [executePrepared]
  split
  · exact moves_execute stamp _ params
  · exact .throw _

/-- No statement spoils the names in a directory. -/
theorem wellformed_executeText {s : Shelf} (hs : s.Wellformed) (stamp : ℕ) (sql : String)
    (params : Params) : ((executeText rules stamp sql params).run s).2.Wellformed :=
  (moves_executeText stamp sql params).keeps (fun _ _ h => h.wellformed) hs

end Query

end RecordShelf

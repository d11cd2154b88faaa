import RecordShelf.Proofs.Run
import RecordShelf.Proofs.Sql.Pieces
import RecordShelf.Proofs.Sql.Terms

/-!
# The parts of an UPDATE

The text of an UPDATE has its SET items between SET and the first clause keyword, and its WHERE
terms in the body of the WHERE clause. Both stand in the text as pieces, and the statement is made
of what the grammar reads in them.
-/

namespace RecordShelf.Sql
open Text

namespace Piece

def assignment? (p : Piece) : Option Assignment := Reader.whole? .assignment p.body

def condition (p : Piece) : Condition := .ofText p.body

/-- Where a clause has given a piece there is the clause. -/
theorem exists_clause {clause? : Option Piece} {cut : Piece → List Piece} {p : Piece}
    (hp : p ∈ (clause?.map cut).getD []) :
    ∃ body, clause? = some body ∧ (clause?.map cut).getD [] = cut body := by
  cases clause? with
  | none => exact absurd hp List.not_mem_nil
  | some body => exact ⟨body, rfl, rfl⟩

end Piece

/-- The SET items of an UPDATE and the body of its WHERE clause. -/
structure UpdateParts where
  set : Piece
  where? : Option Piece
  deriving DecidableEq

namespace UpdateParts

def items (u : UpdateParts) : List Piece := u.set.split ','

def terms (u : UpdateParts) : List Piece := (u.where?.map Piece.terms).getD []

/-- The parts stand in a text, and a statement is what is read in them. -/
structure Of (u : UpdateParts) (text : List Char) (s : Update) : Prop where
  set : u.set.Placed text
  where? : ∀ p ∈ u.where?, p.Placed text
  assignments : s.assignments = u.items.filterMap Piece.assignment?
  setPlaceholders : s.setPlaceholders = (placeholders u.set.body).length
  conditions : s.conditions = u.terms.map Piece.condition

variable {u : UpdateParts} {text : List Char} {s : Update}

theorem calm_comma : Calm ',' := by constructor <;> decide

theorem Of.placed_item (h : u.Of text s) : ∀ p ∈ u.items, p.Placed text :=
  h.set.split calm_comma

/-- Where there is a term there is a WHERE clause. -/
theorem exists_where {p : Piece} (hp : p ∈ u.terms) :
    ∃ body, u.where? = some body ∧ u.terms = body.terms :=
  Piece.exists_clause hp

end UpdateParts

/-- A text without white space around it and semicolons after it. -/
def Piece.bare (cs : List Char) : Piece := ⟨cs.takeWhile isWhite, bareText cs⟩

/-- The parts of a text, if it starts and goes on as an UPDATE does. -/
def updateParts? (cs : List Char) : Option UpdateParts :=
  match Reader.leading (bareText cs) with
  | .ok (.update, rest) =>
    match Reader.tableName rest with
    | .ok (_, after) =>
      (findKeyword ["set".toList] after).map fun place =>
        let clauses := ((Piece.bare cs).behind after).drop place.2
        ⟨clauses.head, clauses.clause? .where_⟩
    | .error _ => none
  | _ => none

theorem dropLastWhile_append (p : Char → Bool) (cs : List Char) :
    ∃ ds, cs = (cs.reverse.dropWhile p).reverse ++ ds := by
  refine ⟨(cs.reverse.takeWhile p).reverse, ?_⟩
  rw [← List.reverse_append, List.takeWhile_append_dropWhile, List.reverse_reverse]

theorem Piece.placed_bare (cs : List Char) : (Piece.bare cs).Placed cs := by
  constructor
  · obtain ⟨ds, hds⟩ := dropLastWhile_append isWhite (trimStart cs)
    obtain ⟨es, hes⟩ := dropLastWhile_append (· == ';') (Text.trim cs)
    obtain ⟨fs, hfs⟩ := dropLastWhile_append isWhite
      ((Text.trim cs).reverse.dropWhile (· == ';')).reverse
    refine ⟨fs ++ (es ++ ds), ?_⟩
    calc cs = cs.takeWhile isWhite ++ trimStart cs := List.takeWhile_append_dropWhile.symm
      _ = cs.takeWhile isWhite ++ (Text.trim cs ++ ds) := congrArg _ hds
      _ = cs.takeWhile isWhite ++ ((bareText cs ++ fs ++ es) ++ ds) := by
        rw [hes, hfs]
        rfl
      _ = (bare cs).before ++ ((bare cs).body ++ (fs ++ (es ++ ds))) := by
        simp only [bare, List.append_assoc]
  · exact ScanState.run_of_calm rfl fun c hc => calm_of_isWhite (List.mem_takeWhile_imp hc)

theorem conditionsOf_map_body (p : Option Piece) :
    conditionsOf (p.map Piece.body) = ((p.map Piece.terms).getD []).map Piece.condition := by
  cases p with
  | none => rfl
  | some p =>
    rw [Option.map_some, conditionsOf, ← Piece.map_body_terms, List.map_map]
    rfl

theorem Part.ofReader_ok {α : Type} {result : Except (List Char) α} {a : α}
    (h : Part.ofReader result = .ok a) : result = .ok a := by
  cases result with
  | error place => exact absurd h (by simp [Part.ofReader, Except.mapError])
  | ok b => exact congrArg Except.ok (Except.ok.inj h)

theorem parseBody_update {kind : StatementKind} {rest : List Char} {s : Update}
    (h : parseBody kind rest = .ok (.update s)) : kind = .update ∧ parseUpdate rest = .ok s := by
  cases kind with
  | update =>
    obtain ⟨update, hupdate, heq⟩ := ok_of_map h
    obtain rfl := Statement.update.inj heq
    exact ⟨rfl, hupdate⟩
  | showTables => exact absurd (Except.ok.inj h) (by simp)
  | select | insert | delete | createTable =>
    obtain ⟨other, -, heq⟩ := ok_of_map h
    exact absurd heq (by simp)

theorem parseText_ok_iff {text : List Char} {s : Statement} : parseText text = .ok s ↔
    ∃ kind rest, Reader.leading (bareText text) = .ok (kind, rest) ∧ parseBody kind rest = .ok s := by
  rw [parseText]
  constructor
  · intro h
    split at h
    · rename_i kind rest hleading
      cases hbody : parseBody kind rest with
      | error cause => exact absurd h (by simp [hbody, Except.mapError])
      | ok statement =>
        rw [hbody] at h
        obtain rfl := Except.ok.inj h
        exact ⟨kind, rest, hleading, hbody⟩
    · exact absurd h (by simp)
  · rintro ⟨kind, rest, hleading, hbody⟩
    simp only [hleading, hbody]
    rfl

theorem parseText_update {text : List Char} {s : Update} (h : parseText text = .ok (.update s)) :
    ∃ rest, Reader.leading (bareText text) = .ok (.update, rest) ∧ parseUpdate rest = .ok s := by
  obtain ⟨kind, rest, hleading, hbody⟩ := parseText_ok_iff.1 h
  obtain ⟨rfl, hupdate⟩ := parseBody_update hbody
  exact ⟨rest, hleading, hupdate⟩

theorem parseUpdate_ok {rest : List Char} {s : Update} (h : parseUpdate rest = .ok s) :
    ∃ table after start stop, Reader.tableName rest = .ok (table, after) ∧
      findKeyword ["set".toList] after = some (start, stop) ∧
      s = {
        table := table
        assignments := (splitTopLevel ',' (Clauses.ofText (after.drop stop)).head).filterMap
          (Reader.whole? .assignment)
        setPlaceholders := (placeholders (Clauses.ofText (after.drop stop)).head).length
        conditions := conditionsOf ((Clauses.ofText (after.drop stop)).body? .where_) } := by
  obtain ⟨⟨table, after⟩, htable, h⟩ := ok_of_bind h
  dsimp only at h
  split at h
  · rename_i start stop hset
    exact ⟨table, after, start, stop, Part.ofReader_ok htable, hset, (Except.ok.inj h).symm⟩
  · exact absurd h (by simp [throw_eq_error])

/-- Every UPDATE that can be read has its parts in its text. -/
theorem exists_updateParts {text : List Char} {s : Update} (h : parseText text = .ok (.update s)) :
    ∃ u, updateParts? text = some u ∧ u.Of text s := by
  obtain ⟨rest, hleading, hupdate⟩ := parseText_update h
  obtain ⟨table, after, start, stop, htable, hset, rfl⟩ := parseUpdate_ok hupdate
  obtain ⟨w, hbare, hw⟩ := Reader.takesQuiet_leading _ _ _ hleading
  obtain ⟨v, hrest, hv⟩ := Reader.takesQuiet_tableName _ _ _ htable
  have hbehind : ((Piece.bare text).behind after).Placed text := by
    refine (Piece.placed_bare text).behind (w := w ++ v) ?_ (hw.append hv).run
    rw [List.append_assoc, ← hrest, ← hbare]
    rfl
  have hclauses := hbehind.drop (top_of_findKeyword (keyword_searched _ (by decide)) hset).2
  let clauses := ((Piece.bare text).behind after).drop stop
  refine ⟨⟨clauses.head, clauses.clause? .where_⟩, ?_, ?_⟩
  · rw [updateParts?, hleading]
    simp only [htable, hset]
    rfl
  constructor
  · exact hclauses.head
  · exact hclauses.clause?
  · have hhead : (Clauses.ofText (after.drop stop)).head = clauses.head.body :=
      (Piece.body_head clauses).symm
    dsimp only
    rw [hhead, ← Piece.map_body_split, List.filterMap_map]
    rfl
  · rfl
  · rw [UpdateParts.terms, ← conditionsOf_map_body, Piece.map_body_clause?]
    rfl

end RecordShelf.Sql

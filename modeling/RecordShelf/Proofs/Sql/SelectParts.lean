import RecordShelf.Proofs.Sql.Counting
import RecordShelf.Proofs.Sql.TableNames

/-!
# The parts of a SELECT

In the text of a SELECT operands stand in the bodies of the WHERE, LIMIT and OFFSET clauses. They are
found there as pieces, whatever the order in which the clauses are written, and the statement is made
of what the grammar reads in them. The select list and the other clauses hold no operands.
-/

namespace RecordShelf.Sql
open Text

/-! ## Operands that are whole pieces -/

namespace Piece
variable {p : Piece}

def operand? (p : Piece) : Option Operand := Reader.whole? .operand p.body

/-- The operands of a LIMIT clause. -/
def limitItems (p : Piece) : List Piece := (p.split ',').map trim

theorem ends_operand {o : Operand} (h : p.operand? = some o) : Ends p.body o :=
  .of_operand Quiet.nil (Reader.whole?_eq_some_iff.1 h)

theorem placed_limitItems {text : List Char} (h : p.Placed text) :
    ∀ q ∈ p.limitItems, q.Placed text := by
  intro q hq
  obtain ⟨r, hr, rfl⟩ := List.mem_map.1 hq
  exact (h.split UpdateParts.calm_comma r hr).trim

theorem counted_limitItems (hp : ScanState.run .start p.before = .start) :
    Counted (signs p.before) p.limitItems :=
  (counted_split hp UpdateParts.calm_comma).trim

/-- The signs in pieces that are operands are those that a binder takes for them. -/
theorem total_operands {items : List Piece} {operands : List Operand}
    (h : items.map operand? = operands.map some) :
    total items = (operands.map Operand.taken).sum := by
  induction items generalizing operands with
  | nil =>
    obtain rfl := List.map_eq_nil_iff.1 h.symm
    rfl
  | cons item items ih =>
    cases operands with
    | nil => exact absurd h (by simp)
    | cons o operands =>
      rw [List.map_cons, List.map_cons, List.cons.injEq] at h
      have hrest := ih h.2
      rw [total] at hrest ⊢
      rw [List.map_cons, List.map_cons, List.sum_cons, List.sum_cons, (ends_operand h.1).signs, hrest]

/-- The operand of a piece has its place between the operands of the pieces around it. -/
theorem operands_append {items earlier later : List Piece} {item : Piece} {operands : List Operand}
    {o : Operand} (h : items.map operand? = operands.map some)
    (hitems : items = earlier ++ item :: later) (hread : item.operand? = some o) :
    ∃ before after, operands = before ++ o :: after ∧ earlier.map operand? = before.map some := by
  rw [hitems, List.map_append, List.map_cons, hread] at h
  obtain ⟨before, rest, rfl, hbefore, hrest⟩ := List.map_eq_append_iff.1 h.symm
  obtain ⟨o', after, rfl, ho, -⟩ := List.map_eq_cons_iff.1 hrest
  obtain rfl := Option.some.inj ho
  exact ⟨before, after, rfl, hbefore.symm⟩

end Piece

/-- The operands of a LIMIT as they are written. -/
def Limit.operands (l : Limit) : List Operand := l.offset.toList ++ [l.count]

namespace Select

/-- The operands of the LIMIT clause. -/
def limitOperands (s : Select) : List Operand := (s.limit.map Limit.operands).getD []

/-- The operands that say which rows to give, those of LIMIT first. -/
def pageOperands (s : Select) : List Operand := s.limitOperands ++ s.offset.toList

/-- The placeholders that a binder meets in the conditions. -/
def filterTaken (s : Select) : ℕ := (s.conditions.map Condition.taken).sum

/-- The placeholders in the LIMIT clause. -/
def limitTaken (s : Select) : ℕ := (s.limitOperands.map Operand.taken).sum

end Select

/-! ## Reading them -/

theorem wholeOperand_ok {cs : List Char} {o : Operand} (h : wholeOperand cs = .ok o) :
    Reader.whole? .operand (trim cs) = some o := by
  rw [Reader.whole?, Part.ofReader_ok h]
  rfl

theorem limitOf_ok {body : List Char} {l : Limit} (h : limitOf body = .ok l) :
    (splitTopLevel ',' body).map (fun item => Reader.whole? .operand (trim item)) =
      l.operands.map some := by
  rw [limitOf] at h
  split at h
  · rename_i count hsplit
    obtain ⟨o, hcount, h⟩ := ok_of_bind h
    obtain rfl := Except.ok.inj h
    rw [hsplit, List.map_singleton, wholeOperand_ok hcount]
    rfl
  · rename_i offset count hsplit
    obtain ⟨o, hoffset, h⟩ := ok_of_bind h
    obtain ⟨o', hcount, h⟩ := ok_of_bind h
    obtain rfl := Except.ok.inj h
    rw [hsplit, List.map_cons, List.map_singleton, wholeOperand_ok hoffset, wholeOperand_ok hcount]
    rfl
  · exact absurd h (by simp [throw_eq_error])

/-! ## Parts -/

/-- The bodies of the clauses of a SELECT that operands stand in. -/
structure SelectParts where
  where? : Option Piece
  limit? : Option Piece
  offset? : Option Piece
  deriving DecidableEq

namespace SelectParts

def terms (q : SelectParts) : List Piece := (q.where?.map Piece.terms).getD []

def limitItems (q : SelectParts) : List Piece := (q.limit?.map Piece.limitItems).getD []

/-- The operand of OFFSET. -/
def offsetItem? (q : SelectParts) : Option Piece := q.offset?.map Piece.trim

/-- The parts stand in a text, and a statement has what is read in them. -/
structure Of (q : SelectParts) (text : List Char) (s : Select) : Prop where
  where? : ∀ p ∈ q.where?, p.Placed text
  limit? : ∀ p ∈ q.limit?, p.Placed text
  offset? : ∀ p ∈ q.offset?, p.Placed text
  conditions : s.conditions = q.terms.map Piece.condition
  limit : q.limitItems.map Piece.operand? = s.limitOperands.map some
  offset : q.offsetItem?.bind Piece.operand? = s.offset

variable {q : SelectParts} {p : Piece}

theorem exists_where (hp : p ∈ q.terms) : ∃ body, q.where? = some body ∧ q.terms = body.terms :=
  Piece.exists_clause hp

theorem exists_limit (hp : p ∈ q.limitItems) :
    ∃ body, q.limit? = some body ∧ q.limitItems = body.limitItems :=
  Piece.exists_clause hp

end SelectParts

/-- What follows the table of a SELECT, if the text starts as one. -/
def selectTail? (cs : List Char) : Option Piece :=
  match Reader.leading (bareText cs) with
  | .ok (.select, rest) =>
    (findKeyword ["from".toList] rest).bind fun place =>
      match Reader.tableName (rest.drop place.2) with
      | .ok (_, after) => some ((((Piece.bare cs).behind rest).drop place.2).behind after)
      | .error _ => none
  | _ => none

/-- The parts of a text, if it starts as a SELECT does. -/
def selectParts? (cs : List Char) : Option SelectParts :=
  (selectTail? cs).map fun tail =>
    ⟨tail.clause? .where_, tail.clause? .limit, tail.clause? .offset⟩

theorem parseText_select {text : List Char} {s : Select} (h : parseText text = .ok (.select s)) :
    ∃ rest, Reader.leading (bareText text) = .ok (.select, rest) ∧ parseSelect rest = .ok s := by
  obtain ⟨kind, rest, hleading, hbody⟩ := parseText_ok_iff.1 h
  cases kind with
  | select =>
    obtain ⟨select, hselect, heq⟩ := ok_of_map hbody
    obtain rfl := Statement.select.inj heq
    exact ⟨rest, hleading, hselect⟩
  | showTables => exact absurd (Except.ok.inj hbody) (by simp)
  | update | insert | delete | createTable =>
    obtain ⟨other, -, heq⟩ := ok_of_map hbody
    exact absurd heq (by simp)

theorem placed_selectTail {text rest after : List Char} {start stop : ℕ} {name : String}
    (hleading : Reader.leading (bareText text) = .ok (.select, rest))
    (hfrom : findKeyword ["from".toList] rest = some (start, stop))
    (htable : Reader.tableName (rest.drop stop) = .ok (name, after)) :
    ((((Piece.bare text).behind rest).drop stop).behind after).Placed text := by
  obtain ⟨w, hbare, hw⟩ := Reader.takesQuiet_leading _ _ _ hleading
  obtain ⟨v, hrest, hv⟩ := Reader.takesQuiet_tableName _ _ _ htable
  have hbehind : ((Piece.bare text).behind rest).Placed text :=
    (Piece.placed_bare text).behind hbare hw.run
  have hdrop := hbehind.drop (n := stop) (top_of_findKeyword (keyword_searched _ (by decide)) hfrom).2
  exact hdrop.behind hrest hv.run

/-- The operands of an absent or a readable LIMIT. -/
theorem limitItems_of_ok {clause? : Option Piece} {limit : Option Limit}
    (h : optionalPart limitOf (clause?.map Piece.body) = .ok limit) :
    ((clause?.map Piece.limitItems).getD []).map Piece.operand? =
      ((limit.map Limit.operands).getD []).map some := by
  cases clause? with
  | none =>
    obtain rfl := Except.ok.inj h
    rfl
  | some p =>
    obtain ⟨l, hl, rfl⟩ := ok_of_map h
    have hread := limitOf_ok hl
    rw [← Piece.map_body_split, List.map_map] at hread
    rw [Option.map_some, Option.getD_some, Option.map_some, Option.getD_some, ← hread,
      Piece.limitItems, List.map_map]
    rfl

theorem offsetItem_of_ok {clause? : Option Piece} {offset : Option Operand}
    (h : optionalPart wholeOperand (clause?.map Piece.body) = .ok offset) :
    (clause?.map Piece.trim).bind Piece.operand? = offset := by
  cases clause? with
  | none => exact Except.ok.inj h
  | some p =>
    obtain ⟨o, ho, rfl⟩ := ok_of_map h
    exact wholeOperand_ok ho

/-- Every SELECT that can be read has its parts in its text. -/
theorem exists_selectParts {text : List Char} {s : Select} (h : parseText text = .ok (.select s)) :
    ∃ q, selectParts? text = some q ∧ q.Of text s := by
  obtain ⟨rest, hleading, hselect⟩ := parseText_select h
  obtain ⟨start, stop, name, after, limit, offset, hfrom, htable, hlimit, hoffset, rfl⟩ :=
    parseSelect_ok hselect
  have htail := placed_selectTail hleading hfrom htable
  let tail := (((Piece.bare text).behind rest).drop stop).behind after
  have hclause (clause : ClauseName) :
      (Clauses.ofText after).body? clause = (tail.clause? clause).map Piece.body :=
    (Piece.map_body_clause? tail clause).symm
  refine ⟨⟨tail.clause? .where_, tail.clause? .limit, tail.clause? .offset⟩, ?_, ?_⟩
  · have hfound : selectTail? text = some tail := by
      rw [selectTail?, hleading]
      dsimp only
      rw [hfrom, Option.bind_some, htable]
    rw [selectParts?, hfound]
    rfl
  constructor
  · exact htail.clause?
  · exact htail.clause?
  · exact htail.clause?
  · dsimp only
    rw [hclause, conditionsOf_map_body]
    rfl
  · exact limitItems_of_ok (hclause .limit ▸ hlimit)
  · exact offsetItem_of_ok (hclause .offset ▸ hoffset)

end RecordShelf.Sql

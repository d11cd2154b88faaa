import Mathlib
import RecordShelf.Proofs.Query.TextOrder
import RecordShelf.Proofs.Sql.SelectParts

/-!
# Params of a SELECT in text order

The binder goes through the WHERE terms, the operands of LIMIT and that of OFFSET, in this order
wherever the clauses stand, and meets no placeholder elsewhere. So a clause takes the params of its
places in the text exactly when all that stands before it in the text, and nothing else, is what the
binder has gone through before it.
-/

namespace RecordShelf.Query
open Sql
variable {text : List Char} {ph : Placeholder}

/-! ## The values of a SELECT -/

/-- The values of the conditions. -/
def filterValues (s : Select) (params : Params) : List (Option Json) :=
  Binder.run Binder.bindCondition (.start params) s.conditions

/-- The values of the operands of LIMIT and OFFSET. -/
def pageValues (s : Select) (params : Params) : List (Option Json) :=
  Binder.run Binder.bind (Predicate.bindAll (.start params) s.conditions).2 s.pageOperands

/-- A SELECT with values for its conditions and for its operands of LIMIT and OFFSET. -/
def BoundSelect.ofValues (s : Select) (filter page : List (Option Json)) : BoundSelect where
  predicates := (s.conditions.zip filter).filterMap fun bound => predicate? bound.1 bound.2
  offset := (s.offset.bind fun _ => (page[s.limitOperands.length]?).join).or
    (s.limit.bind fun l => l.offset.bind fun _ => (page[0]?).join)
  limit := s.limit.bind fun l => (page[l.offset.toList.length]?).join

theorem bindSelect_eq (s : Select) (params : Params) :
    bindSelect s params = .ofValues s (filterValues s params) (pageValues s params) := by
  have hpredicates := bindAll_eq (.start params) s.conditions
  obtain ⟨columns, table, conditions, order, limit, offset⟩ := s
  rw [bindSelect, BoundSelect.ofValues, filterValues, ← hpredicates]
  cases limit with
  | none => cases offset <;> rfl
  | some l =>
    obtain ⟨limitOffset, count⟩ := l
    cases limitOffset <;> cases offset <;> rfl

theorem bindAll_positional (values : List Json) (cursor : ℕ) (conditions : List Condition) :
    (Predicate.bindAll ⟨.positional values, cursor⟩ conditions).2 =
      ⟨.positional values, cursor + (conditions.map Condition.taken).sum⟩ := by
  induction conditions generalizing cursor with
  | nil => rfl
  | cons c conditions ih =>
    have hstep := @Binder.bindCondition_positional values cursor c
    rw [List.map_cons, List.sum_cons, ← Nat.add_assoc, ← ih]
    rw [← hstep]
    cases c <;> rfl

/-! ## Always the same place -/

/-- A value is the param at a place, or no value behind the last one, in every list of params. -/
def AlwaysTakes (value : Params → Option (Option Json)) (place : ℕ) : Prop :=
  ∀ values, value (.positional values) = some values[place]?

theorem AlwaysTakes.takes {value : Params → Option (Option Json)} {place : ℕ}
    (h : AlwaysTakes value place) : Takes value place :=
  fun values _ => h values

theorem alwaysTakes_condition {s : Select} {earlier later : List Condition} {field : String}
    {op : CompareOp} (hs : s.conditions = earlier ++ .compare field op (.placeholder ph) :: later) :
    AlwaysTakes (fun params => (filterValues s params)[earlier.length]?)
      (0 + (earlier.map Condition.taken).sum) := by
  intro values
  dsimp only
  rw [filterValues, hs]
  exact Binder.getElem?_run_compare 0 earlier later

theorem alwaysTakes_pageOperand {s : Select} {earlier later : List Operand}
    (hs : s.pageOperands = earlier ++ .placeholder ph :: later) :
    AlwaysTakes (fun params => (pageValues s params)[earlier.length]?)
      (s.filterTaken + (earlier.map Operand.taken).sum) := by
  intro values
  dsimp only
  rw [pageValues, Binder.start, bindAll_positional, hs, Nat.zero_add]
  refine (Binder.getElem?_run Binder.bind_positional _ earlier _ later).trans ?_
  rw [Binder.bind_placeholder]
  rfl

/-! ## Terms, LIMIT and OFFSET -/

/-- Where a placeholder of a SELECT stands and which param it takes. The first param can be a record
here, for no value comes from its fields. -/
structure SelectBinds (text : List Char) (p : Piece) (ph : Placeholder)
    (value : Params → Option (Option Json)) (place : ℕ) (inOrder : Prop) : Prop
    extends Binds text p ph value place inOrder where
  always : AlwaysTakes value place

variable {s : Select} {q : SelectParts}

/-- A placeholder in a WHERE comparison takes the param of its place in the text exactly when no
placeholder stands before the terms. -/
theorem selectBinds_term (hq : q.Of text s) {earlier later : List Piece} {term : Piece}
    {field : String} {op : CompareOp} (hterms : q.terms = earlier ++ term :: later)
    (hread : term.condition = .compare field op (.placeholder ph)) :
    SelectBinds text term ph (fun params => (filterValues s params)[earlier.length]?)
      (0 + (earlier.map fun e => e.condition.taken).sum)
      (∀ w ∈ q.where?, (placeholders w.before).length = 0) := by
  have hconditions : s.conditions = earlier.map Piece.condition ++
      .compare field op (.placeholder ph) :: later.map Piece.condition := by
    rw [hq.conditions, hterms, List.map_append, List.map_cons, hread]
  have halways := alwaysTakes_condition hconditions
  rw [List.length_map, List.map_map] at halways
  obtain ⟨w, hwhere, hbody⟩ := SelectParts.exists_where (hterms ▸ List.mem_append_cons_self)
  rw [hbody] at hterms
  refine ⟨?_, halways⟩
  simp only [hwhere, Option.mem_some_iff, forall_eq']
  exact binds_whereTerm (hq.where? w hwhere) hterms hread halways.takes

/-- A placeholder in LIMIT takes the param of its place in the text exactly when the placeholders
before the clause are as many as those of the WHERE terms. -/
theorem selectBinds_limit (hq : q.Of text s) {earlier later : List Piece} {item : Piece}
    (hitems : q.limitItems = earlier ++ item :: later)
    (hread : item.operand? = some (.placeholder ph)) :
    SelectBinds text item ph (fun params => (pageValues s params)[earlier.length]?)
      (s.filterTaken + ((s.limitOperands.take earlier.length).map Operand.taken).sum)
      (∀ c ∈ q.limit?, (placeholders c.before).length = s.filterTaken) := by
  obtain ⟨before, after, hoperands, hearlier⟩ := Piece.operands_append hq.limit hitems hread
  have hpage : s.pageOperands = before ++ .placeholder ph :: (after ++ s.offset.toList) := by
    rw [Select.pageOperands, hoperands, List.append_assoc, List.cons_append]
  have halways := alwaysTakes_pageOperand hpage
  have hlength : earlier.length = before.length := by
    simpa only [List.length_map] using congrArg List.length hearlier
  rw [← hlength] at halways
  have htake : s.limitOperands.take earlier.length = before := by
    rw [hoperands, hlength, List.take_left]
  obtain ⟨c, hlimit, hbody⟩ := SelectParts.exists_limit (hitems ▸ List.mem_append_cons_self)
  have hclause : c.Placed text := hq.limit? c hlimit
  rw [hbody] at hitems
  have hplaced : item.Placed text :=
    Piece.placed_limitItems hclause item (hitems ▸ List.mem_append_cons_self)
  rw [htake]
  refine ⟨?_, halways⟩
  simp only [hlimit, Option.mem_some_iff, forall_eq']
  refine binds_in_clause hclause hplaced (Piece.ends_operand hread) halways.takes fun _ => ?_
  have hcounted := Piece.counted_limitItems hclause.clean
  rw [hitems] at hcounted
  rw [hcounted.before, Piece.total_operands hearlier]

/-- A placeholder in OFFSET takes the param of its place in the text exactly when the placeholders
before the clause are as many as those of the WHERE terms and of LIMIT. -/
theorem selectBinds_offset (hq : q.Of text s) {item : Piece} (hitem : q.offsetItem? = some item)
    (hread : item.operand? = some (.placeholder ph)) :
    SelectBinds text item ph (fun params => (pageValues s params)[s.limitOperands.length]?)
      (s.filterTaken + s.limitTaken)
      (∀ c ∈ q.offset?, (placeholders c.before).length = s.filterTaken + s.limitTaken) := by
  have hoffset : s.offset = some (.placeholder ph) := by
    rw [← hq.offset, hitem, Option.bind_some, hread]
  have hpage : s.pageOperands = s.limitOperands ++ [.placeholder ph] := by
    rw [Select.pageOperands, hoffset]
    rfl
  have halways := alwaysTakes_pageOperand hpage
  obtain ⟨c, hclause, rfl⟩ := Option.map_eq_some_iff.1 hitem
  have hplaced : c.Placed text := hq.offset? c hclause
  refine ⟨?_, halways⟩
  simp only [hclause, Option.mem_some_iff, forall_eq']
  refine binds_in_clause (n := 0) hplaced hplaced.trim (Piece.ends_operand hread) halways.takes
    fun _ => ?_
  exact Piece.signs_before_trim c

/-! ## Whole statements -/

/-- Where a SELECT takes its params: the values of the terms and of the operands of LIMIT and OFFSET
are bound in this order, wherever they stand, and each placeholder in them takes the param at the
number of placeholders that the binder has met before it. -/
theorem select_binds {sql : String} {s : Select} (h : parse sql = .ok (.select s)) :
    ∃ q, selectParts? sql.toList = some q ∧ q.Of sql.toList s ∧
      (∀ params, bindSelect s params =
        .ofValues s (filterValues s params) (pageValues s params)) ∧
      (∀ earlier term later field op ph, q.terms = earlier ++ term :: later →
        term.condition = .compare field op (.placeholder ph) →
          SelectBinds sql.toList term ph (fun params => (filterValues s params)[earlier.length]?)
            (earlier.map fun e => e.condition.taken).sum
            (∀ w ∈ q.where?, placeholders w.before = [])) ∧
      (∀ earlier item later ph, q.limitItems = earlier ++ item :: later →
        item.operand? = some (.placeholder ph) →
          SelectBinds sql.toList item ph (fun params => (pageValues s params)[earlier.length]?)
            (s.filterTaken + ((s.limitOperands.take earlier.length).map Operand.taken).sum)
            (∀ c ∈ q.limit?, (placeholders c.before).length = s.filterTaken)) ∧
      ∀ item ph, q.offsetItem? = some item → item.operand? = some (.placeholder ph) →
        SelectBinds sql.toList item ph
          (fun params => (pageValues s params)[s.limitOperands.length]?)
          (s.filterTaken + s.limitTaken)
          (∀ c ∈ q.offset?, (placeholders c.before).length = s.filterTaken + s.limitTaken) := by
  obtain ⟨q, hparts, hq⟩ := exists_selectParts h
  refine ⟨q, hparts, hq, bindSelect_eq s, ?_, ?_, ?_⟩
  · intro earlier term later field op ph hterms hread
    have hbinds := selectBinds_term hq hterms hread
    simpa only [Nat.zero_add, List.length_eq_zero_iff] using hbinds
  · intro earlier item later ph hitems hread
    exact selectBinds_limit hq hitems hread
  · intro item ph hitem hread
    exact selectBinds_offset hq hitem hread

theorem select_binds_notes : ∃ s,
    parse "SELECT * FROM notes WHERE kind = ? LIMIT ? OFFSET ?" = .ok (.select s) ∧
      AlwaysTakes (fun params => (filterValues s params)[0]?) 0 ∧
      AlwaysTakes (fun params => (pageValues s params)[0]?) 1 ∧
      AlwaysTakes (fun params => (pageValues s params)[1]?) 2 := by
  let s : Select := ⟨[.star], "notes", [.compare "kind" .eq (.placeholder .positional)], [],
    some ⟨none, .placeholder .positional⟩, some (.placeholder .positional)⟩
  have hparse : parse "SELECT * FROM notes WHERE kind = ? LIMIT ? OFFSET ?" = .ok (.select s) := by
    cbv
  obtain ⟨q, hparts, -, -, hterm, hlimit, hoffset⟩ := select_binds hparse
  have hparts' : selectParts? "SELECT * FROM notes WHERE kind = ? LIMIT ? OFFSET ?".toList =
      some ⟨some ⟨"SELECT * FROM notes WHERE ".toList, "kind = ?".toList⟩,
        some ⟨"SELECT * FROM notes WHERE kind = ? LIMIT ".toList, "?".toList⟩,
        some ⟨"SELECT * FROM notes WHERE kind = ? LIMIT ? OFFSET ".toList, "?".toList⟩⟩ := by
    cbv
  obtain rfl := Option.some.inj (hparts.symm.trans hparts')
  have hkind := hterm [] ⟨"SELECT * FROM notes WHERE ".toList, "kind = ?".toList⟩ []
    "kind" .eq .positional (by decide +kernel) (by decide +kernel)
  have hcount := hlimit [] ⟨"SELECT * FROM notes WHERE kind = ? LIMIT ".toList, "?".toList⟩ []
    .positional (by decide +kernel) (by decide +kernel)
  have hskip := hoffset ⟨"SELECT * FROM notes WHERE kind = ? LIMIT ? OFFSET ".toList, "?".toList⟩
    .positional (by decide +kernel) (by decide +kernel)
  exact ⟨s, hparse, hkind.always, hcount.always, hskip.always⟩

/-- The comparison stands behind one placeholder and takes the first param. -/
theorem select_out_of_order : ∃ s,
    parse "SELECT * FROM t LIMIT ? WHERE a = ?" = .ok (.select s) ∧
      placeholders "SELECT * FROM t LIMIT ? WHERE a = ".toList = [.positional] ∧
      filterValues s (.positional [.ofNat 1, .ofNat 2]) = [some (.ofNat 1)] ∧
      (bindSelect s (.positional [.ofNat 1, .ofNat 2])).limit = some (.ofNat 2) :=
  ⟨⟨[.star], "t", [.compare "a" .eq (.placeholder .positional)], [],
      some ⟨none, .placeholder .positional⟩, none⟩,
    by cbv, by decide +kernel, rfl, rfl⟩

end RecordShelf.Query

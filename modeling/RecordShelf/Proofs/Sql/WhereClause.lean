import RecordShelf.Proofs.Sql.Counting
import RecordShelf.Proofs.Sql.FieldLookup

/-!
# DELETE and UPDATE with a WHERE clause

A text that deletes from a table, or updates it, where some condition holds is read as the statement
with the terms of the condition, whatever these are.
-/

namespace RecordShelf.Sql
open Text

/-- The text that deletes the records of a table that meet a condition. -/
def deleteText (table : String) (condition : List Char) : List Char :=
  "DELETE FROM ".toList ++ (table.toList ++ (" WHERE ".toList ++ condition))

/-- The text that assigns a value, given as param, to a column of the records that meet a condition. -/
def updateText (table column : String) (condition : List Char) : List Char :=
  "UPDATE ".toList ++ (table.toList ++ (" SET ".toList ++
    (column.toList ++ (" = ?".toList ++ (" WHERE ".toList ++ condition)))))

namespace Reader
variable {name rest : List Char}

theorem deleteTable_word (hne : name ≠ []) (hword : ∀ c ∈ name, isAsciiWord c = true)
    (hrest : ∀ c ∈ rest.head?, isWord c = false) :
    deleteTable (" FROM ".toList ++ (name ++ rest)) =
      .ok (String.ofList (lowerCase name), rest) := by
  have hspace : blanks1 ([' '] ++ ("FROM ".toList ++ (name ++ rest))) =
      .ok ([' '], "FROM ".toList ++ (name ++ rest)) :=
    run1_append (List.cons_ne_nil _ _) isSpacing_space (forall_head?_cons (by decide) _)
  have hfrom : keyword "from" ("FROM".toList ++ ' ' :: (name ++ rest)) =
      .ok ((), ' ' :: (name ++ rest)) := keyword_cons (by decide) (by decide) _
  have hgap : blanks1 ([' '] ++ (name ++ rest)) = .ok ([' '], name ++ rest) := by
    refine run1_append (List.cons_ne_nil _ _) isSpacing_space ?_
    obtain ⟨c, tail, rfl⟩ := List.exists_cons_of_ne_nil hne
    exact forall_head?_cons (isSpacing_of_isWhite (isWhite_of_isAsciiWord
      (hword c List.mem_cons_self))) _
  rw [deleteTable]
  exact (bind_of_ok hspace).trans ((bind_of_ok hfrom).trans ((bind_of_ok hgap).trans
    (identifier_word hne hword hrest)))

end Reader

/-! ## One assignment -/

namespace FieldName
variable {column : String} (h : FieldName column)
include h

theorem splitTopLevel_body : splitTopLevel ',' (lookupBody column) = [lookupBody column] := by
  have hone : splitTopLevel ',' ([','].intercalate [lookupBody column]) = [lookupBody column] :=
    splitTopLevel_intercalate (List.cons_ne_nil _ _) (Or.inl rfl)
      (List.forall_mem_singleton.2 (h.lexed_body h.free))
      (List.forall_mem_singleton.2 h.trimmed_body)
  rwa [List.intercalate_singleton] at hone

theorem assignment_body : Reader.whole? .assignment (lookupBody column) =
    some ⟨column, .placeholder .positional⟩ := by
  refine Reader.whole?_eq_some_iff.2 ?_
  rw [lookupBody, Reader.assignment, Reader.bind_of_ok (Reader.identifier_spaced h.plain _)]
  rfl

theorem length_placeholders_body : (placeholders (lookupBody column)).length = 1 := by
  have hcalm : ∀ c ∈ column.toList, Calm c := fun c hc =>
    calm_of_isWord (isWord_of_isAsciiWord (h.plain.word c hc))
  have hnameless : Nameless (lookupBody column) := by
    refine nameless_of_not_mem fun hc => ?_
    rcases List.mem_append.1 hc with hname | hrest
    · exact absurd (hcalm ':' hname).sign (by decide)
    · exact absurd hrest (by decide)
  have hsigns : signsFrom .start column.toList = 0 :=
    signsFrom_eq_zero (fun c hc => (hcalm c hc).sign) _
  rw [length_placeholders hnameless, lookupBody, signs, signsFrom_append, hsigns,
    ScanState.run_of_calm rfl hcalm]
  rfl

end FieldName

/-! ## Statements -/

section
variable {table : String} {condition : List Char}

/-- The text keeps its ends, since the condition does. -/
theorem bareText_where {c : Char} (before : List Char) (hc : isWhite c = false)
    (htrimmed : Trimmed condition) :
    bareText (c :: (before ++ (" WHERE ".toList ++ condition))) =
      c :: (before ++ (" WHERE ".toList ++ condition)) := by
  refine bareText_append hc (by simp) fun d hd => htrimmed.last d ?_
  rw [List.getLast?_append, List.getLast?_eq_some_getLast htrimmed.nonempty] at hd
  rw [List.getLast?_eq_some_getLast htrimmed.nonempty]
  exact hd

theorem parse_deleteText (htable : Names.isTable table = true)
    (hlexed : Lexed Free (fun _ => True) condition) (htrimmed : Trimmed condition) :
    parseText (deleteText table condition) =
      .ok (.delete ⟨folded table, conditionsOf (some condition)⟩) := by
  have hbare : bareText (deleteText table condition) = deleteText table condition :=
    bareText_where (c := 'D') ("ELETE FROM ".toList ++ table.toList) (by decide) htrimmed
  have hword : ∀ c ∈ (" WHERE ".toList ++ condition).head?, isWord c = false :=
    Reader.forall_head?_cons (by decide) _
  have hname := Reader.deleteTable_word (toList_ne_nil_of_isTable htable)
    (isAsciiWord_of_isTable htable) hword
  have hbody := body?_segments (bodies_whereOnly hlexed htrimmed) .where_
  rw [segments_whereOnly] at hbody
  refine parseText_ok_iff.2 ⟨.delete, " FROM ".toList ++
    (table.toList ++ (" WHERE ".toList ++ condition)), ?_, ?_⟩
  · rw [hbare]
    exact Reader.leading_delete _
  · rw [parseBody, parseDelete, Part.ofReader_of_ok hname, ok_bind]
    dsimp only
    rw [hbody]
    rfl

theorem parse_updateText {column : String} (htable : Names.isTable table = true)
    (hcolumn : FieldName column) (hlexed : Lexed Free (fun _ => True) condition)
    (htrimmed : Trimmed condition) : parseText (updateText table column condition) =
      .ok (.update ⟨folded table, [⟨column, .placeholder .positional⟩], 1,
        conditionsOf (some condition)⟩) := by
  have hbare : bareText (updateText table column condition) = updateText table column condition := by
    have hsplit : updateText table column condition = 'U' :: ("PDATE ".toList ++ (table.toList ++
        (" SET ".toList ++ (column.toList ++ " = ?".toList))) ++ (" WHERE ".toList ++ condition)) := by
      simp only [List.append_assoc]
      rfl
    rw [hsplit]
    exact bareText_where _ (by decide) htrimmed
  have hword : ∀ c ∈ (" SET ".toList ++ (column.toList ++ (" = ?".toList ++
      (" WHERE ".toList ++ condition)))).head?, isWord c = false :=
    Reader.forall_head?_cons (by decide) _
  have hname := Reader.tableName_word (toList_ne_nil_of_isTable htable)
    (isAsciiWord_of_isTable htable) hword
  have hset : findKeyword ["set".toList] (" SET ".toList ++ (column.toList ++ (" = ?".toList ++
      (" WHERE ".toList ++ condition)))) = some (1, 4) :=
    findKeyword_append (by decide +kernel) (by decide) _
  have hdrop : (" SET ".toList ++ (column.toList ++ (" = ?".toList ++
      (" WHERE ".toList ++ condition)))).drop 4 =
        [' '] ++ lookupBody column ++ ClauseName.all.flatMap (segment (whereOnly condition)) := by
    rw [segments_whereOnly, lookupBody]
    simp only [List.append_assoc]
    rfl
  have hbodies := bodies_whereOnly hlexed htrimmed
  have hhead : Lexed Free (fun _ => True) ([' '] ++ lookupBody column) :=
    .loose (by decide) trivial hcolumn.free_body
  refine parseText_ok_iff.2 ⟨.update, ' ' :: (table.toList ++ (" SET ".toList ++ (column.toList ++
    (" = ?".toList ++ (" WHERE ".toList ++ condition))))), ?_, ?_⟩
  · rw [hbare]
    exact Reader.leading_update _
  · rw [parseBody, parseUpdate, Part.ofReader_of_ok hname, ok_bind]
    dsimp only
    rw [hset]
    dsimp only
    rw [hdrop, body?_append hbodies hhead, head_append hbodies isWhite_space hcolumn.trimmed_body hhead,
      hcolumn.splitTopLevel_body, hcolumn.length_placeholders_body, List.filterMap_cons,
      hcolumn.assignment_body]
    rfl

end

end RecordShelf.Sql

import RecordShelf.Proofs.Sql.PairedClauses

/-!
# Letter case of statements

Two texts that differ only in the case of letters outside strings and placeholders are parsed to the
same statement, but for the texts kept of select items and conditions that cannot be read, or they
are refused in the same way.
-/

namespace RecordShelf.Sql
open Text

/-! ## Without the texts that are kept -/

def Column.withoutText : Column → Column
  | .other _ => .other ""
  | column => column

/-- The placeholders of a condition that cannot be read stay. -/
def Condition.withoutText : Condition → Condition
  | .unread _ ps => .unread "" ps
  | c => c

def Select.withoutTexts (s : Select) : Select :=
  { s with
    columns := s.columns.map Column.withoutText
    conditions := s.conditions.map Condition.withoutText }

def Update.withoutTexts (s : Update) : Update :=
  { s with conditions := s.conditions.map Condition.withoutText }

def Delete.withoutTexts (s : Delete) : Delete :=
  { s with conditions := s.conditions.map Condition.withoutText }

/-- The statement without the texts kept of items and conditions that cannot be read. -/
def Statement.withoutTexts : Statement → Statement
  | .select s => .select s.withoutTexts
  | .update s => .update s.withoutTexts
  | .delete s => .delete s.withoutTexts
  | s => s

/-! ## Parts that come to the same -/

section
variable {ε α β : Type} {P Q : List Char → List Char → Prop} {T : β → β → Prop}

namespace Agree

/-- What follows a reader goes on with what it has left. -/
theorem reader_bind {x y : Except (List Char) (α × List Char)} {f g : α × List Char → Part β}
    (h : Agree (Results Eq Q) x y)
    (hf : ∀ a rest rest', Q rest rest' → Agree T (f (a, rest)) (g (a, rest'))) :
    Agree T (Part.ofReader x >>= f) (Part.ofReader y >>= g) := by
  refine (h.mapError Malformation.ofRest).bind ?_
  rintro ⟨a, rest⟩ ⟨b, rest'⟩ ⟨hvalue, hrest⟩
  obtain rfl : a = b := hvalue
  exact hf a rest rest' hrest

theorem mapM {items items' : List (List Char)} {f : List Char → Except ε α}
    (h : List.Forall₂ P items items') (hf : ∀ cs ds, P cs ds → Agree Eq (f cs) (f ds)) :
    Agree Eq (items.mapM f) (items'.mapM f) := by
  induction h with
  | nil => exact .ok rfl
  | cons hitem _ ih =>
    rw [List.mapM_cons, List.mapM_cons]
    exact (hf _ _ hitem).bind fun _ _ hvalue => ih.bind fun _ _ hrest => .ok (by rw [hvalue, hrest])

theorem optionalPart {read : List Char → Part α} {body body' : Option (List Char)}
    (h : Option.Rel P body body') (hread : ∀ cs ds, P cs ds → Agree Eq (read cs) (read ds)) :
    Agree Eq (optionalPart read body) (optionalPart read body') := by
  cases h with
  | some hbody => exact (hread _ _ hbody).map fun _ _ => congrArg some
  | none => exact .ok rfl

end Agree

/-- Lists whose items go together come to the same. -/
theorem map_eq_of_forall₂ {γ : Type} {f : List Char → γ} {items items' : List (List Char)}
    (h : List.Forall₂ P items items') (hf : ∀ cs ds, P cs ds → f cs = f ds) :
    items.map f = items'.map f := by
  rw [← List.forall₂_eq_eq_eq, List.forall₂_map_left_iff, List.forall₂_map_right_iff]
  exact h.imp fun cs ds => hf cs ds

theorem filterMap_eq_of_forall₂ {γ : Type} {f : List Char → Option γ}
    {items items' : List (List Char)} (h : List.Forall₂ P items items')
    (hf : ∀ cs ds, P cs ds → f cs = f ds) : items.filterMap f = items'.filterMap f := by
  induction h with
  | nil => rfl
  | cons hitem _ ih => rw [List.filterMap_cons, List.filterMap_cons, hf _ _ hitem, ih]

end

/-! ## Clause bodies -/

section
variable {cs ds : List Char} {body body' : Option (List Char)}

theorem column_same (h : Alike cs ds) :
    (Column.ofText cs).withoutText = (Column.ofText ds).withoutText := by
  have hstar : cs = ['*'] ↔ ds = ['*'] := by
    have hmap : ∀ es : List Char, es.map Char.toLower = ['*'] ↔ es = ['*'] := by
      intro es
      rw [List.map_eq_singleton_iff]
      constructor
      · rintro ⟨c, rfl, hc⟩
        rw [(toLower_eq_iff (by decide) c).1 hc]
      · rintro rfl
        exact ⟨'*', rfl, rfl⟩
    rw [← hmap, h, hmap]
  rw [Column.ofText, Column.ofText, Reader.reads_count.whole? h, Reader.reads_identifier.whole? h]
  simp only [hstar]
  split_ifs
  · rfl
  · cases Reader.whole? Reader.count ds with
    | some label => rfl
    | none =>
      cases Reader.whole? Reader.identifier ds with
      | some name => rfl
      | none => rfl

theorem columnsOf_same (h : Alike cs ds) :
    (columnsOf cs).map Column.withoutText = (columnsOf ds).map Column.withoutText := by
  rw [columnsOf, columnsOf, h.trim.isEmpty]
  split_ifs
  · rfl
  · rw [List.map_map, List.map_map]
    exact map_eq_of_forall₂ (h.trim.splitTopLevel (by decide)) fun _ _ => column_same

theorem condition_same (h : SameText cs ds) :
    (Condition.ofText cs).withoutText = (Condition.ofText ds).withoutText := by
  rw [Condition.ofText, Condition.ofText, Reader.reads_condition.whole? h.anywhere,
    h.placeholders_eq]
  cases Reader.whole? Reader.condition ds with
  | some c => rfl
  | none => rfl

theorem conditionsOf_same (h : Option.Rel SameText body body') :
    (conditionsOf body).map Condition.withoutText =
      (conditionsOf body').map Condition.withoutText := by
  cases h with
  | none => rfl
  | some hbody =>
    rw [conditionsOf, conditionsOf, List.map_map, List.map_map]
    exact map_eq_of_forall₂ hbody.splitConjunction fun _ _ => condition_same

theorem orderOf_same (h : Option.Rel Alike body body') : orderOf body = orderOf body' := by
  cases h with
  | none => rfl
  | some hbody =>
    exact filterMap_eq_of_forall₂ (hbody.splitTopLevel (by decide)) fun _ _ =>
      Reader.reads_orderItem.whole?

theorem wholeOperand_agree (h : SameText cs ds) :
    Agree Eq (wholeOperand cs) (wholeOperand ds) :=
  (Reader.reads_operand.whole h.trim).mapError _

theorem limitOf_agree (h : SameText cs ds) : Agree Eq (limitOf cs) (limitOf ds) := by
  have hitems := h.items
  rw [limitOf, limitOf]
  generalize splitTopLevel ',' cs = items at hitems ⊢
  generalize splitTopLevel ',' ds = items' at hitems ⊢
  cases hitems with
  | nil => exact .error _ _
  | cons hfirst hrest =>
    cases hrest with
    | nil => exact (wholeOperand_agree hfirst).bind fun _ _ hcount => .ok (by rw [hcount])
    | cons hsecond hrest =>
      cases hrest with
      | nil =>
        exact (wholeOperand_agree hfirst).bind fun _ _ hoffset =>
          (wholeOperand_agree hsecond).bind fun _ _ hcount => .ok (by rw [hoffset, hcount])
      | cons _ _ => exact .error _ _

/-! ## Sources of an insertion -/

theorem operandList?_same (h : SameText cs ds) : operandList? cs = operandList? ds := by
  have hinner := h.trim.parenthesized?
  rw [operandList?, operandList?]
  generalize parenthesized? (trim cs) = x at hinner ⊢
  generalize parenthesized? (trim ds) = y at hinner ⊢
  cases hinner with
  | none => rfl
  | some hinner =>
    have hitems := hinner.items
    simp only [Option.bind_eq_bind, Option.bind_some]
    generalize splitTopLevel ',' _ = items at hitems ⊢
    generalize splitTopLevel ',' _ = items' at hitems ⊢
    induction hitems with
    | nil => rfl
    | cons hitem _ ih =>
      rw [List.mapM_cons, List.mapM_cons, ih, Reader.reads_operand.whole? hitem]

theorem setSource_agree (h : SameText cs ds) : Agree Eq (setSource cs) (setSource ds) := by
  rw [setSource, setSource, Reader.reads_placeholder.whole? h.trim]
  cases Reader.whole? Reader.placeholder (trim ds) with
  | some _ => exact .ok rfl
  | none =>
    have hitem : ∀ cs ds, SameText cs ds → Agree Eq
        (Part.ofReader (Reader.whole .assignment cs)) (Part.ofReader (Reader.whole .assignment ds)) :=
      fun _ _ h => (Reader.reads_assignment.whole h.anywhere).mapError _
    exact (Agree.mapM h.trim.items hitem).map fun _ _ => congrArg InsertSource.assignments

end

/-! ## Readers of statements -/

namespace Reader

theorem reads_keyword_anywhere {word : String} (hword : word.toList.all Char.isAlpha = true) :
    Reads (SameBehind Anywhere) (SameBehind Anywhere) (keyword word) :=
  (reads_keyword_behind hword).post fun _ _ => SameBehind.anywhere

theorem reads_blanks1_anywhere :
    Reads (SameBehind Anywhere) (SameBehind Anywhere) blanks1 :=
  reads_blanks1_behind.post fun _ _ => SameFrom.anywhere

theorem reads_leading :
    Reads (SameBehind Anywhere) (SameBehind Apart) leading := by
  have hone : ∀ (word : String) (kind : StatementKind), word.toList.all Char.isAlpha = true →
      Reads (SameBehind Anywhere) (SameBehind Apart)
        (do keyword word; return kind : Reader StatementKind) :=
    fun _ _ hword => (reads_keyword_behind hword).bind fun _ => .pure _
  have htwo : ∀ (first second : String) (kind : StatementKind),
      first.toList.all Char.isAlpha = true → second.toList.all Char.isAlpha = true →
      Reads (SameBehind Anywhere) (SameBehind Apart)
        (do twoWords first second; return kind : Reader StatementKind) := by
    intro first second kind hfirst hsecond
    have hwords : Reads (SameBehind Anywhere) (SameBehind Apart) (twoWords first second) :=
      (reads_keyword_anywhere hfirst).bind fun _ => reads_blanks1_anywhere.bind fun _ =>
        reads_keyword_behind hsecond
    exact hwords.bind fun _ => .pure _
  exact (htwo "insert" "into" _ (by decide) (by decide)).either <|
    (hone "select" _ (by decide)).either <| (hone "update" _ (by decide)).either <|
    (hone "delete" _ (by decide)).either <|
    (htwo "create" "table" _ (by decide) (by decide)).either
      (htwo "show" "tables" _ (by decide) (by decide))

theorem reads_tableName :
    Reads (SameBehind Anywhere) (SameBehind Apart) tableName :=
  reads_blanks_anywhere.bind fun _ => reads_identifier_behind

theorem reads_deleteTable :
    Reads (SameBehind Anywhere) (SameBehind Apart) deleteTable :=
  reads_blanks1_anywhere.bind fun _ => (reads_keyword_anywhere (by decide)).bind fun _ =>
    reads_blanks1_anywhere.bind fun _ => reads_identifier_behind

/-- Behind a word that leads in placeholders and its blanks a part stands by itself. -/
theorem reads_opening {word : String} (hmem : word.toList ∈ leadIns) :
    Reads (SameBehind Apart) SameText (opening word) :=
  (reads_leadIn hmem).bind fun _ => reads_blanks_same.bind fun _ => .pure _

theorem reads_names (fuel : ℕ) :
    Reads (SameBehind Anywhere) (SameBehind Anywhere) (names fuel) := by
  induction fuel with
  | zero => exact reads_name_anywhere.bind fun _ => .pure _
  | succ fuel ih =>
    have hcomma : Reads (SameBehind Anywhere) (SameBehind Anywhere) (char ',') :=
      (reads_sign (by decide) (by decide) (by decide) ⟨rfl, rfl⟩).post fun _ _ => SameFrom.anywhere
    exact reads_name_anywhere.bind fun _ =>
      ((reads_blanks_anywhere.bind fun _ => hcomma.bind fun _ =>
        reads_blanks_anywhere.bind fun _ => ih).optional fun _ _ => id).bind fun _ => .pure _

theorem reads_columnList :
    Reads (SameBehind Anywhere) (SameBehind Apart) columnList := by
  intro cs ds h
  rw [columnList, columnList, ← h.alike.length]
  have hopen : Reads (SameBehind Anywhere) (SameBehind Anywhere) (char '(') :=
    (reads_sign (by decide) (by decide) (by decide) ⟨rfl, rfl⟩).post fun _ _ => SameFrom.anywhere
  have hclose : Reads (SameBehind Anywhere) (SameBehind Apart) (char ')') :=
    (reads_sign (by decide) (by decide) (by decide) ⟨rfl, rfl⟩).post fun _ _ => SameFrom.apart
  have hlist : Reads (SameBehind Anywhere) (SameBehind Apart) (do
      let _ ← char '('
      let _ ← blanks
      let columns ← names cs.length
      let _ ← blanks
      let _ ← char ')'
      return columns : Reader (List String)) :=
    hopen.bind fun _ => reads_blanks_anywhere.bind fun _ =>
      (reads_names cs.length).bind fun _ => reads_blanks_anywhere.bind fun _ =>
        hclose.bind fun _ => .pure _
  exact hlist cs ds h

end Reader

/-! ## Statements -/

section
variable {cs ds : List Char}

theorem columnSource_agree (h : SameBehind Apart cs ds) :
    Agree Eq (columnSource cs) (columnSource ds) := by
  refine .reader_bind (Reader.reads_columnList _ _ h.anywhere) fun columns rest rest' hrest => ?_
  refine .ok ?_
  dsimp only
  rw [hrest.alike.findKeyword_eq]
  cases hfound : findKeyword ["values".toList] rest' with
  | none => rfl
  | some place =>
    obtain ⟨start, stop⟩ := place
    rw [← hrest.alike.findKeyword_eq] at hfound
    have hbehind := (hrest.drop_keyword (by decide) (by decide) hfound).2 (by decide)
    simp only [Option.bind_eq_bind, Option.bind_some, operandList?_same hbehind]

theorem insertSource_agree (h : SameBehind Apart cs ds) :
    Agree Eq (insertSource cs) (insertSource ds) := by
  have hparen : cs.head? = some '(' ↔ ds.head? = some '(' := h.alike.head?_iff (by decide)
  rw [insertSource, insertSource, ← h.alike.isEmpty]
  simp only [← hparen]
  split_ifs
  · exact .ok rfl
  · exact columnSource_agree h
  · have hset : Agree _ (Reader.opening "set" cs) (Reader.opening "set" ds) :=
      Reader.reads_opening (by decide) cs ds h
    have hvalues : Agree _ (Reader.opening "values" cs) (Reader.opening "values" ds) :=
      Reader.reads_opening (by decide) cs ds h
    generalize Reader.opening "set" cs = x at hset ⊢
    generalize Reader.opening "set" ds = y at hset ⊢
    generalize Reader.opening "values" cs = x' at hvalues ⊢
    generalize Reader.opening "values" ds = y' at hvalues ⊢
    cases hset with
    | ok hrest => exact setSource_agree hrest.2
    | error _ _ =>
      cases hvalues with
      | ok hrest =>
        exact ((Reader.reads_placeholder.whole hrest.2.trim).mapError _).bind fun _ _ _ => .ok rfl
      | error _ _ => exact .error _ _

theorem parseSelect_agree (h : SameBehind Apart cs ds) :
    Agree (fun s t => s.withoutTexts = t.withoutTexts) (parseSelect cs) (parseSelect ds) := by
  rw [parseSelect, parseSelect, ← h.alike.findKeyword_eq]
  cases hfound : findKeyword ["from".toList] cs with
  | none => exact .error _ _
  | some place =>
    obtain ⟨start, stop⟩ := place
    have hrest := (h.drop_keyword (by decide) (by decide) hfound).1
    refine .reader_bind (Reader.reads_tableName _ _ hrest.anywhere) fun table tail tail' htail => ?_
    have hlimit := rel_body?_same htail holdsNames_limit
    have hoffset := rel_body?_same htail holdsNames_offset
    refine .bind (.optionalPart hlimit fun _ _ => limitOf_agree) ?_
    rintro limit _ rfl
    refine .bind (.optionalPart hoffset fun _ _ => wholeOperand_agree) ?_
    rintro offset _ rfl
    refine .ok ?_
    simp only [Select.withoutTexts, columnsOf_same (h.alike.take start),
      conditionsOf_same (rel_body?_same htail holdsNames_where),
      orderOf_same (rel_body? htail .orderBy)]

theorem parseInsert_agree (h : SameBehind Apart cs ds) :
    Agree Eq (parseInsert cs) (parseInsert ds) := by
  refine .reader_bind (Reader.reads_tableName _ _ h.anywhere) fun table body body' hbody => ?_
  have hfound : findKeyword duplicateWords body = findKeyword duplicateWords body' :=
    hbody.alike.findKeyword_eq _
  dsimp only
  rw [hfound, hbody.alike.length]
  exact (insertSource_agree (hbody.take _).trim).bind fun _ _ hsource => .ok (by rw [hsource])

theorem parseUpdate_agree (h : SameBehind Apart cs ds) :
    Agree (fun s t => s.withoutTexts = t.withoutTexts) (parseUpdate cs) (parseUpdate ds) := by
  refine .reader_bind (Reader.reads_tableName _ _ h.anywhere) fun table after after' hafter => ?_
  dsimp only
  rw [← hafter.alike.findKeyword_eq]
  cases hfound : findKeyword ["set".toList] after with
  | none => exact .error _ _
  | some place =>
    obtain ⟨start, stop⟩ := place
    have hrest := (hafter.drop_keyword (by decide) (by decide) hfound).2 (by decide)
    refine .ok ?_
    have hitems := filterMap_eq_of_forall₂ hrest.head.items fun _ _ hitem =>
      Reader.reads_assignment.whole? hitem.anywhere
    simp only [Update.withoutTexts, hitems, hrest.head.placeholders_eq,
      conditionsOf_same (rel_body?_same hrest.apart holdsNames_where)]

theorem parseDelete_agree (h : SameBehind Apart cs ds) :
    Agree (fun s t => s.withoutTexts = t.withoutTexts) (parseDelete cs) (parseDelete ds) := by
  refine .reader_bind (Reader.reads_deleteTable _ _ h.anywhere) fun table tail tail' htail => .ok ?_
  simp only [Delete.withoutTexts, conditionsOf_same (rel_body?_same htail holdsNames_where)]

theorem parseCreateTable_agree (h : Alike cs ds) :
    Agree Eq (parseCreateTable cs) (parseCreateTable ds) :=
  .reader_bind (Reader.reads_createdTable _ _ h) fun _ _ _ _ => .ok rfl

theorem parseBody_agree (kind : StatementKind) (h : SameBehind Apart cs ds) :
    Agree (fun s t => s.withoutTexts = t.withoutTexts) (parseBody kind cs)
      (parseBody kind ds) := by
  cases kind with
  | select => exact (parseSelect_agree h).map fun _ _ => congrArg Statement.select
  | insert => exact (parseInsert_agree h).map fun _ _ hinsert => by rw [hinsert]
  | update => exact (parseUpdate_agree h).map fun _ _ => congrArg Statement.update
  | delete => exact (parseDelete_agree h).map fun _ _ => congrArg Statement.delete
  | createTable => exact (parseCreateTable_agree h.alike).map fun _ _ htable => by rw [htable]
  | showTables => exact .ok rfl

/-- The white space and the semicolons around a statement are the same. -/
theorem SameFrom.bareText (h : SameText cs ds) : SameText (bareText cs) (bareText ds) :=
  (h.trim.dropEnd (Letterless.folds (p := (· == ';')) (by decide))).dropEnd letterless_isWhite.folds

end

/-- Letter case outside strings and the names of placeholders does not count: both texts are parsed
to the same statement but for the texts it keeps verbatim, or both are refused, as no statement at
all or as malformed statements of one kind. -/
theorem parse_of_sameText {a b : String} (h : SameText a.toList b.toList) :
    ((parse a).map Statement.withoutTexts).mapError ParseError.kind? =
      ((parse b).map Statement.withoutTexts).mapError ParseError.kind? := by
  have hleading := Reader.reads_leading _ _ h.bareText.anywhere
  rw [parse, parse, parseText, parseText]
  generalize Reader.leading (bareText a.toList) = x at hleading ⊢
  generalize Reader.leading (bareText b.toList) = y at hleading ⊢
  cases hleading with
  | @ok r r' hresult =>
    obtain ⟨kind, rest⟩ := r
    obtain ⟨kind', rest'⟩ := r'
    obtain ⟨hkind, hrest⟩ : kind = kind' ∧ SameBehind Apart rest rest' := hresult
    subst hkind
    have hbody := parseBody_agree kind hrest
    dsimp only
    generalize parseBody kind rest = x at hbody ⊢
    generalize parseBody kind rest' = y at hbody ⊢
    cases hbody with
    | ok value => exact congrArg Except.ok value
    | error _ _ => rfl
  | error _ _ =>
    have hkind : ∀ cs, (ParseError.unsupportedText cs).kind? = none := fun _ => rfl
    simp only [Except.map, Except.mapError, hkind]

/-- A select item and a term that cannot be read, a string and a placeholder among other things. -/
theorem parse_of_sameText_notes :
    let a := "SELECT Name, Upper(Kind) FROM Notes WHERE Kind LIKE :Kind AND Sum(Size) > 'To Do'"
    let b := "select NAME, UPPER(kind) from NOTES where KIND like :Kind and SUM(size) > 'To Do'"
    SameText a.toList b.toList ∧
      ((parse a).map Statement.withoutTexts).mapError ParseError.kind? =
        ((parse b).map Statement.withoutTexts).mapError ParseError.kind? :=
  ⟨by decide +kernel, parse_of_sameText (by decide +kernel)⟩

end RecordShelf.Sql

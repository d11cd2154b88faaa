import RecordShelf.Proofs.Sql.ReadBack
import RecordShelf.Proofs.Sql.TableNames

/-!
# Reading a written SELECT

Every canonical SELECT is read back from its text, whatever its strings hold.
-/

namespace RecordShelf.Sql
open Text

/-! ## Lists of parts -/

theorem free_of_not_mem_reserved {word : List Char} (h : word ∉ reserved) : Free word := by
  rintro name rfl
  revert h
  cases name <;> decide

theorem ne_of_not_mem_reserved {word other : List Char} (hother : other ∈ reserved)
    (h : word ∉ reserved) : word ≠ other := by
  rintro rfl
  exact h hother

theorem gap_cases (sp : Spelling) : sp.gap = [] ∨ sp.gap = [' '] := by
  rw [Spelling.gap]
  split_ifs
  · exact Or.inr rfl
  · exact Or.inl rfl

section
variable {α : Type} {write : α → List Char} {items : List α}

/-- Uncut parts with commas between them. -/
theorem splitTopLevel_comma (sp : Spelling) (hne : items ≠ [])
    (h : ∀ item ∈ items, Uncut (write item)) :
    splitTopLevel ',' (sp.comma.intercalate (items.map write)) = items.map write := by
  have hlexed : ∀ part ∈ items.map write, Lexed (· ∉ reserved) (· ≠ ',') part :=
    List.forall_mem_map.2 fun item hitem => (h item hitem).lexed
  have htrimmed : ∀ part ∈ items.map write, Trimmed part :=
    List.forall_mem_map.2 fun item hitem => (h item hitem).trimmed
  exact splitTopLevel_intercalate (by simpa using hne) (gap_cases sp) hlexed htrimmed

theorem trimmed_comma (sp : Spelling) (hne : items ≠ []) (h : ∀ item ∈ items, Uncut (write item)) :
    Trimmed (sp.comma.intercalate (items.map write)) := by
  refine trimmed_intercalate (by simpa using hne) ?_
  exact List.forall_mem_map.2 fun item hitem => (h item hitem).trimmed

theorem lexed_comma (sp : Spelling) (h : ∀ item ∈ items, Uncut (write item)) :
    Lexed (· ∉ reserved) (fun _ => True) (sp.comma.intercalate (items.map write)) := by
  refine lexed_intercalate (fun rest => ends_cons (by decide) (sp.gap ++ rest))
    (fun rest hrest => ?_) ?_
  · refine .loose (by decide) trivial ?_
    rcases gap_cases sp with hgap | hgap
    · rw [hgap]
      exact hrest
    · rw [hgap]
      exact .loose (by decide) trivial hrest
  · exact List.forall_mem_map.2 fun item hitem =>
      (h item hitem).lexed.mono (fun _ => id) fun _ _ => trivial

end

/-! ## Clauses -/

section
variable {s : Select} (sp : Spelling)

theorem splitConjunction_conditions {conditions : List Condition} (hne : conditions ≠ [])
    (h : ∀ c ∈ conditions, c.Canonical) :
    splitConjunction (conjunction.intercalate (conditions.map (Condition.write sp))) =
      conditions.map (Condition.write sp) := by
  have hlexed : ∀ part ∈ conditions.map (Condition.write sp),
      Lexed (· ≠ "and".toList) (· ≠ ',') part :=
    List.forall_mem_map.2 fun c hc => ((h c hc).uncut sp).lexed.mono
      (fun _ => ne_of_not_mem_reserved (by decide)) fun _ => id
  have htrimmed : ∀ part ∈ conditions.map (Condition.write sp), Trimmed part :=
    List.forall_mem_map.2 fun c hc => ((h c hc).uncut sp).trimmed
  exact splitConjunction_intercalate (by simpa using hne) (by decide) hlexed htrimmed

theorem lexed_conditions {conditions : List Condition} (h : ∀ c ∈ conditions, c.Canonical) :
    Lexed Free (fun _ => True) (conjunction.intercalate (conditions.map (Condition.write sp))) := by
  have hand : Free "and".toList := by
    intro name
    cases name <;> decide
  refine lexed_intercalate (fun rest => ends_space _) (fun rest hrest => ?_) ?_
  · have hword : Lexed Free (fun _ => True) ("AND".toList ++ ' ' :: rest) :=
      .capitals (by decide) (by decide) hand (ends_space _) (.loose (by decide) trivial hrest)
    exact .loose (by decide) trivial hword
  · exact List.forall_mem_map.2 fun c hc =>
      ((h c hc).uncut sp).lexed.mono (fun _ => free_of_not_mem_reserved) fun _ _ => trivial

theorem Limit.Canonical.operands {limit : Limit} (h : limit.Canonical) :
    ∀ o ∈ limit.offset.toList ++ [limit.count], Uncut o.write := by
  intro o ho
  rcases List.mem_append.1 ho with ho | ho
  · exact (h.offset o (Option.mem_toList.1 ho)).uncut
  · obtain rfl := List.mem_singleton.1 ho
    exact h.count.uncut

theorem bodies_select (h : s.Canonical) : Bodies (s.body sp) := by
  intro name b hb
  have hcomma : ∀ {α : Type} {write : α → List Char} {items : List α}, items ≠ [] →
      (∀ item ∈ items, Uncut (write item)) →
      Lexed Free (fun _ => True) (sp.comma.intercalate (items.map write)) ∧
        Trimmed (sp.comma.intercalate (items.map write)) := fun hne hitems =>
    ⟨(lexed_comma sp hitems).mono (fun _ => free_of_not_mem_reserved) fun _ _ => trivial,
      trimmed_comma sp hne hitems⟩
  cases name with
  | where_ =>
    simp only [Select.body, joined, List.map_eq_nil_iff, Option.mem_def] at hb
    split_ifs at hb with hne
    obtain rfl := Option.some.inj hb
    refine ⟨lexed_conditions sp h.conditions, trimmed_intercalate (by simpa using hne) ?_⟩
    exact List.forall_mem_map.2 fun c hc => ((h.conditions c hc).uncut sp).trimmed
  | groupBy => exact absurd hb (by simp [Select.body])
  | having => exact absurd hb (by simp [Select.body])
  | orderBy =>
    simp only [Select.body, joined, List.map_eq_nil_iff, Option.mem_def] at hb
    split_ifs at hb with hne
    obtain rfl := Option.some.inj hb
    exact hcomma hne fun item hitem => OrderItem.uncut sp (h.order item hitem)
  | limit =>
    obtain ⟨limit, hlimit, rfl⟩ := Option.map_eq_some_iff.1 hb
    exact hcomma (by simp) (h.limit limit hlimit).operands
  | offset =>
    obtain ⟨o, ho, rfl⟩ := Option.map_eq_some_iff.1 hb
    have huncut := (h.offset o ho).uncut
    exact ⟨huncut.lexed.mono (fun _ => free_of_not_mem_reserved) fun _ _ => trivial, huncut.trimmed⟩

theorem conditionsOf_select (h : s.Canonical) : conditionsOf (s.body sp .where_) = s.conditions := by
  simp only [Select.body, joined, List.map_eq_nil_iff]
  split_ifs with hne
  · exact hne.symm
  · rw [conditionsOf, splitConjunction_conditions sp hne h.conditions, List.map_map]
    refine (List.map_congr_left fun c hc => ?_).trans (List.map_id _)
    exact Condition.ofText_write sp (h.conditions c hc)

theorem orderOf_select (h : s.Canonical) : orderOf (s.body sp .orderBy) = s.order := by
  simp only [Select.body, joined, List.map_eq_nil_iff]
  split_ifs with hne
  · exact hne.symm
  · have hread : ∀ item ∈ s.order, Reader.whole? .orderItem (item.write sp) = some item :=
      fun item hitem => Reader.whole?_eq_some_iff.2 (Reader.orderItem_write sp (h.order item hitem))
    rw [orderOf, splitTopLevel_comma sp hne fun item hitem => OrderItem.uncut sp (h.order item hitem),
      List.filterMap_map]
    refine (List.filterMap_congr fun item hitem => ?_).trans List.filterMap_some
    exact hread item hitem

theorem limitOf_write {limit : Limit} (h : limit.Canonical) :
    limitOf (limit.write sp) = .ok limit := by
  have hne : limit.offset.toList ++ [limit.count] ≠ [] := by simp
  have hsplit := splitTopLevel_comma sp hne h.operands
  obtain ⟨offset, count⟩ := limit
  rw [limitOf, Limit.write, hsplit]
  cases offset with
  | none =>
    show (do return (⟨none, ← wholeOperand count.write⟩ : Limit) : Part Limit) = _
    rw [wholeOperand_write h.count]
    rfl
  | some o =>
    show (do return (⟨some (← wholeOperand o.write), ← wholeOperand count.write⟩ : Limit) :
      Part Limit) = _
    rw [wholeOperand_write (h.offset o rfl), wholeOperand_write h.count]
    rfl

end

/-! ## The whole text -/

theorem optionalPart_map {α : Type} {read : List Char → Part α} {write : α → List Char} {o : Option α}
    (h : ∀ a ∈ o, read (write a) = .ok a) : optionalPart read (o.map write) = .ok o := by
  cases o with
  | none => rfl
  | some a =>
    rw [Option.map_some, optionalPart, h a rfl]
    rfl

section
variable {s : Select} (sp : Spelling)

theorem lexed_columnList (h : s.Canonical) :
    Lexed (· ≠ "from".toList) (fun _ => True) (' ' :: s.columnList sp) := by
  refine .loose (by decide) trivial
    ((lexed_comma sp fun c hc => (h.columns c hc).uncut).mono ?_ fun _ => id)
  exact fun _ => ne_of_not_mem_reserved (by decide)

theorem columnsOf_columnList (h : s.Canonical) :
    columnsOf (' ' :: (s.columnList sp ++ [' '])) = s.columns := by
  have hcolumns : ∀ c ∈ s.columns, Uncut c.write := fun c hc => (h.columns c hc).uncut
  have htrimmed : Trimmed (s.columnList sp) := trimmed_comma sp h.columns_ne hcolumns
  have htrim : trim (' ' :: (s.columnList sp ++ [' '])) = s.columnList sp :=
    trim_padded isWhite_space htrimmed isWhite_space
  have hread : ∀ c ∈ s.columns, Column.ofText c.write = c :=
    fun c hc => Column.ofText_write (h.columns c hc)
  have hnonempty : (s.columnList sp).isEmpty = false :=
    List.isEmpty_eq_false_iff.2 htrimmed.nonempty
  rw [columnsOf, htrim, hnonempty, if_neg Bool.false_ne_true, Select.columnList,
    splitTopLevel_comma sp h.columns_ne hcolumns, List.map_map]
  exact (List.map_congr_left hread).trans (List.map_id _)

theorem tableName_clauses (h : s.Canonical) :
    Reader.tableName (' ' :: (s.table.toList ++ s.clauses sp)) = .ok (s.table, s.clauses sp) := by
  have hends : ∀ c ∈ (s.clauses sp).head?, isWord c = false := by
    intro c hc
    obtain rfl := head?_segments _ _ c hc
    decide
  rw [Reader.tableName_plain h.table.plain hends, String.ofList_toList]

theorem parseSelect_write (h : s.Canonical) : parseSelect (' ' :: (s.columnList sp ++
    ' ' :: ("FROM".toList ++ ' ' :: (s.table.toList ++ s.clauses sp)))) = .ok s := by
  have hbodies := bodies_select sp h
  have hfrom : findKeyword ["from".toList] (' ' :: s.columnList sp ++
      ' ' :: ("FROM".toList ++ ' ' :: (s.table.toList ++ s.clauses sp))) =
        some ((' ' :: s.columnList sp).length + 1, (' ' :: s.columnList sp).length + 1 + 4) :=
    findKeyword_behind (by decide) (lexed_columnList sp h) (m := ('F', .code 0)) rfl rfl rfl
  have htake : (' ' :: s.columnList sp ++
      ' ' :: ("FROM".toList ++ ' ' :: (s.table.toList ++ s.clauses sp))).take
        ((' ' :: s.columnList sp).length + 1) = ' ' :: (s.columnList sp ++ [' ']) := by
    rw [List.take_length_add_append]
    rfl
  have hdrop : (' ' :: s.columnList sp ++
      ' ' :: ("FROM".toList ++ ' ' :: (s.table.toList ++ s.clauses sp))).drop
        ((' ' :: s.columnList sp).length + 1 + 4) = ' ' :: (s.table.toList ++ s.clauses sp) := by
    rw [Nat.add_assoc, List.drop_length_add_append]
    rfl
  have hclause : ∀ name, (Clauses.ofText (s.clauses sp)).body? name = s.body sp name :=
    body?_segments hbodies
  have hlimit : optionalPart limitOf ((Clauses.ofText (s.clauses sp)).body? .limit) = .ok s.limit := by
    rw [hclause]
    exact optionalPart_map fun limit hlimit => limitOf_write sp (h.limit limit hlimit)
  have hoffset : optionalPart wholeOperand ((Clauses.ofText (s.clauses sp)).body? .offset) =
      .ok s.offset := by
    rw [hclause]
    exact optionalPart_map fun o ho => wholeOperand_write (h.offset o ho)
  have hread := parseSelect_of_ok hfrom (hdrop.symm ▸ tableName_clauses sp h) hlimit hoffset
  rw [htake, columnsOf_columnList sp h, hclause, hclause, conditionsOf_select sp h,
    orderOf_select sp h] at hread
  exact hread

theorem trimmed_write (h : s.Canonical) : Trimmed (s.write sp) := by
  have hselect : Uncut "SELECT".toList := .capitals (by decide)
  have hbody : Trimmed (s.table.toList ++ s.clauses sp) :=
    trimmed_segments (bodies_select sp h) h.table.uncut.trimmed ClauseName.all
  have htext : "SELECT ".toList = "SELECT".toList ++ [' '] := by decide
  have hregroup : ∀ a b c d : List Char, a ++ [' '] ++ (b ++ ' ' :: (c ++ ' ' :: d)) =
      a ++ ((' ' :: (b ++ ' ' :: (c ++ [' ']))) ++ d) := by
    intro a b c d
    simp
  have hwrite : s.write sp = "SELECT".toList ++ [' '] ++
      (s.columnList sp ++ ' ' :: ("FROM".toList ++ ' ' :: (s.table.toList ++ s.clauses sp))) :=
    congrArg (· ++ (s.columnList sp ++
      ' ' :: ("FROM".toList ++ ' ' :: (s.table.toList ++ s.clauses sp)))) htext
  rw [hwrite, hregroup]
  exact hselect.trimmed.around hbody _

end

/-- A canonical SELECT is read back from its text. -/
theorem parse_write (sp : Spelling) (s : Select) (h : s.Canonical) :
    parse (String.ofList (s.write sp)) = .ok (.select s) := by
  have hleading : Reader.leading (bareText (String.ofList (s.write sp)).toList) =
      .ok (.select, ' ' :: (s.columnList sp ++
        ' ' :: ("FROM".toList ++ ' ' :: (s.table.toList ++ s.clauses sp)))) := by
    rw [String.toList_ofList, (trimmed_write sp h).bareText_eq]
    exact Reader.leading_select _
  refine parseText_ok_iff.2 ⟨.select, _, hleading, ?_⟩
  rw [parseBody, parseSelect_write sp h]
  rfl

/-- A statement whose string holds everything that cuts a statement. -/
def Select.puzzle : Select where
  columns := [.star, .field "id", .count (some "n")]
  table := "users"
  conditions := [.compare "name" .ne (.literal (.string "'; FROM (a, ?) AND :b LIMIT \\")),
    .isNull "role" true]
  order := [⟨"id", .descending⟩]
  limit := some ⟨some (.placeholder (.named "start")), .literal (.int (-5))⟩
  offset := some (.literal .null)

theorem parse_write_puzzle : Select.puzzle.Canonical ∧
    parse (String.ofList (Select.puzzle.write ⟨true, false, false⟩)) = .ok (.select .puzzle) := by
  have hname : ∀ {name : String}, name.toList ≠ [] →
      name.toList.all (fun c => isAsciiWord c && !c.isUpper) = true → name.toList ∉ reserved →
      CanonicalName name := fun hne hall hfree => ⟨.of_all hne hall, hfree⟩
  have hid : CanonicalName "id" := hname (by decide) (by decide) (by decide)
  have hlabel : CanonicalName "n" := hname (by decide) (by decide) (by decide)
  have hfield : CanonicalName "name" := hname (by decide) (by decide) (by decide)
  have hrole : CanonicalName "role" := hname (by decide) (by decide) (by decide)
  have hstart : CanonicalName "start" := hname (by decide) (by decide) (by decide)
  have hcolumns : ∀ c ∈ [Column.star, .field "id", .count (some "n")], c.Canonical := by
    refine List.forall_mem_cons.2 ⟨trivial, List.forall_mem_cons.2 ⟨hid, ?_⟩⟩
    refine List.forall_mem_singleton.2 fun label hsome => ?_
    obtain rfl := Option.some.inj hsome
    exact hlabel
  have hcanonical : Select.puzzle.Canonical := by
    refine ⟨by decide, hcolumns, hname (by decide) (by decide) (by decide), ?_, ?_, ?_, ?_⟩
    · exact List.forall_mem_cons.2 ⟨⟨hfield, trivial⟩, List.forall_mem_singleton.2 hrole⟩
    · exact List.forall_mem_singleton.2 hid
    · rintro limit hsome
      obtain rfl := Option.some.inj hsome
      refine ⟨fun o ho => ?_, trivial⟩
      obtain rfl := Option.some.inj ho
      exact hstart
    · rintro o ho
      obtain rfl := Option.some.inj ho
      exact trivial
  exact ⟨hcanonical, parse_write ⟨true, false, false⟩ .puzzle hcanonical⟩

example : String.ofList (Select.puzzle.write ⟨true, false, false⟩) =
    "SELECT *, id, COUNT(*) AS n FROM users WHERE name != '''; FROM (a, ?) AND :b LIMIT \\\\' " ++
      "AND role IS NOT NULL ORDER BY id DESC LIMIT :start, -5 OFFSET NULL" := by decide +kernel

end RecordShelf.Sql

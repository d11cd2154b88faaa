import RecordShelf.Proofs.Names
import RecordShelf.Proofs.Sql.SelectText

/-!
# Storing a record, looking for a value

The statement that stores a whole record in a table and the one that looks for a value in one field.
The table may be written in any case. The field may have any name in lower case at which no clause
starts; only a field called `and` is taken for a conjunction, and the condition is dropped.
-/

namespace RecordShelf.Sql
open Text

/-- The table that a name in a statement stands for. -/
def folded (name : String) : String := String.ofList (lowerCase name.toList)

/-- A name of ASCII letters in lower case, digits and underscores that starts no clause. -/
structure FieldName (field : String) : Prop where
  plain : Plain field.toList
  free : Free field.toList

theorem FieldName.of_all {field : String} (hne : field.toList ≠ [])
    (hall : field.toList.all (fun c => isAsciiWord c && !c.isUpper) = true)
    (hfree : ClauseName.all.all (fun name => field.toList ≠ name.first) = true) :
    FieldName field := by
  refine ⟨.of_all hne hall, fun name => ?_⟩
  have hmem : name ∈ ClauseName.all := by cases name <;> decide
  exact of_decide_eq_true (List.all_eq_true.1 hfree name hmem)

/-! ## Names of tables -/

theorem isAsciiWord_of_isTable {table : String} (h : Names.isTable table = true) :
    ∀ c ∈ table.toList, isAsciiWord c = true := by
  intro c hc
  have hallowed := List.all_eq_true.1 (Names.all_of_isTable h) c hc
  have hkind : (NameKind.table == NameKind.key) = false := by decide
  rwa [Names.allows, hkind, Bool.false_and, Bool.or_false] at hallowed

theorem toList_ne_nil_of_isTable {table : String} (h : Names.isTable table = true) :
    table.toList ≠ [] := by
  intro hempty
  have hnone : table = "" := String.toList_inj.1 hempty
  rw [hnone] at h
  exact absurd h (by decide)

/-! ## The two statements -/

/-- What a lookup asks of a record. -/
def lookupConditions (field : String) : List Condition :=
  if field = "and" then [.unread "= ?" [.positional]]
  else [.compare field .eq (.placeholder .positional)]

section
variable {field : String}

/-- The condition of a lookup. -/
def lookupBody (field : String) : List Char := field.toList ++ ' ' :: "= ?".toList

theorem uncut_equals : Uncut "= ?".toList := by
  have hmark : Uncut ['?'] := .loose (by decide) (by decide) (by decide) (.inl rfl)
  have hequals : Uncut ['='] := .loose (by decide) (by decide) (by decide) (.inl rfl)
  exact hequals.spaced hmark

theorem FieldName.trimmed_body (h : FieldName field) : Trimmed (lookupBody field) :=
  (trimmed_word h.plain.nonempty h.plain.word).around uncut_equals.trimmed [' ']

/-- The field is the only word of the condition. -/
theorem FieldName.lexed_body {word : List Char → Prop} (h : FieldName field)
    (hword : word field.toList) : Lexed word (· ≠ ',') (lookupBody field) := by
  refine .word h.plain.nonempty h.plain.word ?_ (ends_space _) ?_
  · rwa [map_toLower_plain h.plain]
  · exact .loose (by decide) (by decide) (.loose (by decide) (by decide)
      (.loose (by decide) (by decide) (.loose (by decide) (by decide) .nil)))

theorem FieldName.free_body (h : FieldName field) :
    Lexed Free (fun _ => True) (lookupBody field) :=
  (h.lexed_body h.free).mono (fun _ => id) fun _ _ => trivial

/-- The clauses of a lookup: WHERE and no others. -/
def lookupClauses (field : String) : ClauseName → Option (List Char)
  | .where_ => some (lookupBody field)
  | _ => none

theorem lookupClauses_eq (field : String) : lookupClauses field = whereOnly (lookupBody field) := by
  funext name
  cases name <;> rfl

theorem FieldName.bodies (h : FieldName field) : Bodies (lookupClauses field) := by
  rw [lookupClauses_eq]
  exact bodies_whereOnly h.free_body h.trimmed_body

end

section
variable {table field : String}

end

end RecordShelf.Sql

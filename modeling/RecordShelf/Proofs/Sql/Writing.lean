import RecordShelf.Proofs.Cache.Keys
import RecordShelf.Proofs.Sql.Joined
import RecordShelf.Proofs.Sql.Terms

/-!
# Writing a SELECT

The text of a SELECT with its clauses in the usual order. Each part that stands between two
separators is `Uncut`: it holds no separator outside its strings and none of the words at which a
statement is cut.
-/

namespace RecordShelf.Sql
open Text

/-! ## Names -/

/-- The words at which a statement is cut. -/
def reserved : List (List Char) :=
  ["from", "where", "group", "having", "order", "limit", "offset", "and"].map String.toList

/-- A name of small letters, digits and underscores that is no reserved word. -/
structure CanonicalName (name : String) : Prop where
  plain : Plain name.toList
  free : name.toList ∉ reserved

/-! ## Texts -/

/-- What a writer may choose: a space behind commas, ASC written out, and `<>` for `!=`. -/
structure Spelling where
  spaced : Bool
  ascending : Bool
  angle : Bool
  deriving DecidableEq

def Spelling.gap (sp : Spelling) : List Char := if sp.spaced then [' '] else []

def Spelling.comma (sp : Spelling) : List Char := ',' :: sp.gap

/-- Floats have no text here. -/
def Literal.write : Literal → List Char
  | .null => "NULL".toList
  | .bool true => "TRUE".toList
  | .bool false => "FALSE".toList
  | .int n => decimalInt n.toInt
  | .float _ => []
  | .string s => quote s.toList

def Operand.write : Operand → List Char
  | .placeholder p => p.written
  | .literal l => l.write

def Spelling.different (sp : Spelling) : List Char := if sp.angle then ['<', '>'] else ['!', '=']

def CompareOp.write (sp : Spelling) : CompareOp → List Char
  | .eq => ['=']
  | .ne => sp.different
  | .gt => ['>']
  | .lt => ['<']
  | .ge => ['>', '=']
  | .le => ['<', '=']
  | .like => "LIKE".toList
  | .notLike => "NOT LIKE".toList

def Condition.write (sp : Spelling) : Condition → List Char
  | .compare field op value => field.toList ++ ' ' :: (op.write sp ++ ' ' :: value.write)
  | .isNull field false => field.toList ++ ' ' :: "IS NULL".toList
  | .isNull field true => field.toList ++ ' ' :: "IS NOT NULL".toList
  | .unread text _ => text.toList

def Column.write : Column → List Char
  | .star => ['*']
  | .field name => name.toList
  | .count none => "COUNT(*)".toList
  | .count (some label) => "COUNT(*)".toList ++ ' ' :: ("AS".toList ++ ' ' :: label.toList)
  | .other text => text.toList

def OrderItem.write (sp : Spelling) (item : OrderItem) : List Char :=
  match item.direction with
  | .ascending =>
    if sp.ascending then item.column.toList ++ ' ' :: "ASC".toList else item.column.toList
  | .descending => item.column.toList ++ ' ' :: "DESC".toList

def Limit.write (sp : Spelling) (limit : Limit) : List Char :=
  sp.comma.intercalate ((limit.offset.toList ++ [limit.count]).map Operand.write)

/-- Parts with a separator between them; no parts have no text. -/
def joined (sep : List Char) (parts : List (List Char)) : Option (List Char) :=
  if parts = [] then none else some (sep.intercalate parts)

/-- The bodies of the clauses of a SELECT. -/
def Select.body (sp : Spelling) (s : Select) : ClauseName → Option (List Char)
  | .where_ => joined conjunction (s.conditions.map (Condition.write sp))
  | .groupBy => none
  | .having => none
  | .orderBy => joined sp.comma (s.order.map (OrderItem.write sp))
  | .limit => s.limit.map (Limit.write sp)
  | .offset => s.offset.map Operand.write

def Select.clauses (sp : Spelling) (s : Select) : List Char :=
  ClauseName.all.flatMap (segment (s.body sp))

def Select.columnList (sp : Spelling) (s : Select) : List Char :=
  sp.comma.intercalate (s.columns.map Column.write)

def Select.write (sp : Spelling) (s : Select) : List Char :=
  "SELECT ".toList ++ (s.columnList sp ++
    ' ' :: ("FROM".toList ++ ' ' :: (s.table.toList ++ s.clauses sp)))

/-! ## Canonical statements -/

def Operand.Canonical : Operand → Prop
  | .placeholder .positional => True
  | .placeholder (.named name) => CanonicalName name
  | .literal (.float _) => False
  | .literal _ => True

def Condition.Canonical : Condition → Prop
  | .compare field _ value => CanonicalName field ∧ value.Canonical
  | .isNull field _ => CanonicalName field
  | .unread _ _ => False

def Column.Canonical : Column → Prop
  | .star => True
  | .field name => CanonicalName name
  | .count label => ∀ name ∈ label, CanonicalName name
  | .other _ => False

structure Limit.Canonical (limit : Limit) : Prop where
  offset : ∀ o ∈ limit.offset, o.Canonical
  count : limit.count.Canonical

structure Select.Canonical (s : Select) : Prop where
  columns_ne : s.columns ≠ []
  columns : ∀ c ∈ s.columns, c.Canonical
  table : CanonicalName s.table
  conditions : ∀ c ∈ s.conditions, c.Canonical
  order : ∀ item ∈ s.order, CanonicalName item.column
  limit : ∀ limit ∈ s.limit, limit.Canonical
  offset : ∀ o ∈ s.offset, o.Canonical

/-! ## Parts that stay whole -/

/-- A part that stays whole when the text around it is cut. -/
structure Uncut (cs : List Char) : Prop where
  lexed : Lexed (· ∉ reserved) (· ≠ ',') cs
  trimmed : Trimmed cs

namespace Uncut
variable {u v : List Char}

theorem spaced (hu : Uncut u) (hv : Uncut v) : Uncut (u ++ ' ' :: v) := by
  constructor
  · exact hu.lexed.append (.loose (by decide) (by decide) hv.lexed) (ends_space v)
  · exact hu.trimmed.around hv.trimmed [' ']

theorem word {name : List Char} (hne : name ≠ []) (hname : ∀ c ∈ name, isAsciiWord c = true)
    (hfree : name.map Char.toLower ∉ reserved) : Uncut name := by
  have hlexed : Lexed (· ∉ reserved) (· ≠ ',') (name ++ []) := .word hne hname hfree ends_nil .nil
  rw [List.append_nil] at hlexed
  exact ⟨hlexed, trimmed_word hne hname⟩

theorem capitals {name : List Char} (h : (name ≠ [] ∧ name.all Char.isUpper = true) ∧
    name.map Char.toLower ∉ reserved) : Uncut name := by
  obtain ⟨⟨hne, hname⟩, hfree⟩ := h
  exact word hne (fun c hc => isAsciiWord_of_isUpper (List.all_eq_true.1 hname c hc)) hfree

theorem loose {c : Char} (hc : isLoose c = true) (hcomma : c ≠ ',')
    (hend : isWhite c = false ∧ c ≠ ';') (hu : u = [] ∨ Uncut u) : Uncut (c :: u) := by
  have hlexed : Lexed (· ∉ reserved) (· ≠ ',') u := by
    rcases hu with rfl | hu
    · exact .nil
    · exact hu.lexed
  refine ⟨.loose hc hcomma hlexed, ?_⟩
  rcases hu with rfl | hu
  · exact trimmed_singleton hend
  · exact (trimmed_singleton hend).around hu.trimmed []

theorem quoted (s : List Char) : Uncut (quote s) := by
  have hlexed : Lexed (· ∉ reserved) (· ≠ ',') (quote s ++ []) := .quoted s .nil
  rw [List.append_nil] at hlexed
  refine ⟨hlexed, by simp [quote], Reader.forall_head?_cons (by decide) _, fun c hc => ?_⟩
  · rw [quote, ← List.cons_append, List.getLast?_concat] at hc
    obtain rfl := Option.some.inj hc
    decide

end Uncut

theorem uncut_is : Uncut "IS".toList := .capitals (by decide)

theorem uncut_not : Uncut "NOT".toList := .capitals (by decide)

theorem uncut_null : Uncut "NULL".toList := .capitals (by decide)

theorem uncut_like : Uncut "LIKE".toList := .capitals (by decide)

theorem uncut_as : Uncut "AS".toList := .capitals (by decide)

theorem toList_notLike : "NOT LIKE".toList = "NOT".toList ++ ' ' :: "LIKE".toList := by decide

theorem toList_count : "COUNT(*)".toList = "COUNT".toList ++ ['(', '*', ')'] := by decide

theorem map_toLower_plain {name : List Char} (hname : Plain name) : name.map Char.toLower = name := by
  refine (List.map_congr_left fun c hc => ?_).trans (List.map_id name)
  exact toLower_of_isUpper_eq_false (hname.small c hc)

theorem CanonicalName.uncut {name : String} (h : CanonicalName name) : Uncut name.toList := by
  refine Uncut.word h.plain.nonempty h.plain.word ?_
  rw [map_toLower_plain h.plain]
  exact h.free

theorem uncut_digits {ds : List Char} (hne : ds ≠ []) (hdigits : ∀ c ∈ ds, c.isDigit = true) :
    Uncut ds := by
  refine Uncut.word hne (fun c hc => ?_) fun hmem => ?_
  · simp [isAsciiWord, Char.isAlphanum, hdigits c hc]
  · obtain ⟨c, cs, hcs⟩ := List.exists_cons_of_ne_nil hne
    have hc : c.isDigit = true := hdigits c (by rw [hcs]; exact List.mem_cons_self)
    have hletters : reserved.all (fun word => word.head?.all Char.isAlpha) = true := by decide
    have hfirst := List.all_eq_true.1 hletters _ hmem
    rw [hcs, List.map_cons, List.head?_cons, Option.all_some] at hfirst
    rw [toLower_of_isDigit hc, isAlpha_of_isDigit hc] at hfirst
    exact absurd hfirst (by decide)

theorem uncut_decimalInt (n : ℤ) : Uncut (decimalInt n) := by
  have hdigits : Uncut (decimalDigits n.natAbs) :=
    uncut_digits (decimalDigits_ne_nil _) fun c => isDigit_of_mem_decimalDigits
  rw [decimalInt]
  split_ifs
  · exact .loose (by decide) (by decide) (by decide) (.inr hdigits)
  · exact hdigits

theorem Operand.Canonical.uncut {o : Operand} (h : o.Canonical) : Uncut o.write := by
  cases o with
  | placeholder p =>
    cases p with
    | positional => exact .loose (c := '?') (by decide) (by decide) (by decide) (.inl rfl)
    | named name =>
      have hname : CanonicalName name := h
      exact .loose (c := ':') (by decide) (by decide) (by decide) (.inr hname.uncut)
  | literal l =>
    cases l with
    | null => exact uncut_null
    | bool b => cases b <;> exact .capitals (by decide)
    | int n => exact uncut_decimalInt n.toInt
    | float x => exact h.elim
    | string s => exact .quoted s.toList

theorem uncut_compareOp (sp : Spelling) (op : CompareOp) : Uncut (op.write sp) := by
  have hsign : ∀ c ∈ ['=', '<', '>', '!'], ∀ u, u = [] ∨ Uncut u → Uncut (c :: u) := by
    intro c hc u hu
    have hall : ['=', '<', '>', '!'].all (fun d => isLoose d && d != ',' && !isWhite d && d != ';') =
        true := by decide
    have hsign := List.all_eq_true.1 hall c hc
    simp only [Bool.and_eq_true, bne_iff_ne, Bool.not_eq_true'] at hsign
    exact .loose hsign.1.1.1 hsign.1.1.2 ⟨hsign.1.2, hsign.2⟩ hu
  have hequals : Uncut ['='] := hsign '=' (by decide) [] (.inl rfl)
  have hgreater : Uncut ['>'] := hsign '>' (by decide) [] (.inl rfl)
  have hless : Uncut ['<'] := hsign '<' (by decide) [] (.inl rfl)
  have hatLeast : Uncut ['>', '='] := hsign '>' (by decide) ['='] (.inr hequals)
  have hatMost : Uncut ['<', '='] := hsign '<' (by decide) ['='] (.inr hequals)
  have hangle : Uncut ['<', '>'] := hsign '<' (by decide) ['>'] (.inr hgreater)
  have hexclaimed : Uncut ['!', '='] := hsign '!' (by decide) ['='] (.inr hequals)
  cases op with
  | eq => exact hequals
  | gt => exact hgreater
  | lt => exact hless
  | ge => exact hatLeast
  | le => exact hatMost
  | ne =>
    change Uncut sp.different
    rw [Spelling.different]
    split_ifs
    · exact hangle
    · exact hexclaimed
  | like => exact uncut_like
  | notLike =>
    change Uncut "NOT LIKE".toList
    rw [toList_notLike]
    exact uncut_not.spaced uncut_like

theorem Condition.Canonical.uncut {c : Condition} (sp : Spelling) (h : c.Canonical) :
    Uncut (c.write sp) := by
  cases c with
  | compare field op value => exact h.1.uncut.spaced ((uncut_compareOp sp op).spaced h.2.uncut)
  | isNull field negated =>
    have hfield : CanonicalName field := h
    cases negated with
    | false => exact hfield.uncut.spaced (uncut_is.spaced uncut_null)
    | true => exact hfield.uncut.spaced (uncut_is.spaced (uncut_not.spaced uncut_null))
  | unread text placeholders => exact h.elim

theorem Column.Canonical.uncut {c : Column} (h : c.Canonical) : Uncut c.write := by
  have hcount : Uncut "COUNT(*)".toList := by
    have hword : Uncut "COUNT".toList := .capitals (by decide)
    have hlexed : Lexed (· ∉ reserved) (· ≠ ',') ("COUNT".toList ++ ['(', '*', ')']) :=
      .capitals (by decide) (by decide) (by decide) (ends_cons (by decide) _) (.star .nil)
    have hclosed : Trimmed [')'] := trimmed_singleton (by decide)
    rw [toList_count]
    exact ⟨hlexed, hword.trimmed.around hclosed ['(', '*']⟩
  cases c with
  | star => exact .loose (by decide) (by decide) (by decide) (.inl rfl)
  | field name => exact CanonicalName.uncut h
  | count label =>
    cases label with
    | none => exact hcount
    | some label => exact hcount.spaced (uncut_as.spaced (CanonicalName.uncut (h label rfl)))
  | other text => exact h.elim

theorem OrderItem.uncut {item : OrderItem} (sp : Spelling) (h : CanonicalName item.column) :
    Uncut (item.write sp) := by
  have hasc : Uncut "ASC".toList := .capitals (by decide)
  have hdesc : Uncut "DESC".toList := .capitals (by decide)
  rw [OrderItem.write]
  split
  · split_ifs
    · exact h.uncut.spaced hasc
    · exact h.uncut
  · exact h.uncut.spaced hdesc

end RecordShelf.Sql

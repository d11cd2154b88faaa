import RecordShelf.Proofs.Sql.WhereClause

/-!
# Conditions with a numeral

A term that compares a field with a numeral is read as that comparison when the numeral has a point
or is an integer of 64 bits. An integer of more bits is no operand: the term is kept as text, and
nothing is left of the comparison.
-/

namespace RecordShelf.Sql
open Text

/-! ## Numerals -/

/-- What starts with a minus sign or a digit is no string. -/
theorem Reader.string_of_number {c : Char} {cs : List Char} (hc : c = '-' ∨ c.isDigit = true) :
    string (c :: cs) = .error (c :: cs) := by
  have hquote : ∀ q : Char, q.isDigit = false → q ≠ '-' → quotedBy q (c :: cs) = .error (c :: cs) := by
    intro q hdigit hminus
    have hne : c ≠ q := by
      rintro rfl
      rcases hc with hc | hc
      · exact hminus hc
      · exact absurd (hdigit.symm.trans hc) Bool.false_ne_true
    have hopen : char q (c :: cs) = .error (c :: cs) := by
      simp [char, satisfy, hne]
    rw [quotedBy, bind_of_error hopen]
  rw [string, either_of_error (hquote '\'' (by decide) (by decide)),
    hquote '"' (by decide) (by decide)]

/-- One or more digits. -/
structure Digits where
  chars : List Char
  nonempty : chars ≠ []
  digit : ∀ c ∈ chars, c.isDigit = true

/-- A decimal numeral: a minus sign or none, digits, and a point with more digits or none. -/
structure Numeral where
  negative : Bool
  whole : Digits
  fraction : Option Digits

namespace Numeral
variable (n : Numeral)

def text : List Char :=
  Reader.signed n.negative n.whole.chars ++
    match n.fraction with
    | some ds => '.' :: ds.chars
    | none => []

/-- The integer before the point. -/
def integer : ℤ := Reader.signedValue n.negative n.whole.chars

/-- The numeral has a point, or its integer has 64 bits. -/
def Readable : Prop := n.fraction = none → -2 ^ 63 ≤ n.integer ∧ n.integer < 2 ^ 63

/-- The literal for which the numeral stands, if it stands for one. -/
def literal? : Option Literal :=
  match n.fraction with
  | some ds => some (.float (Decimal.ofParts n.negative n.whole.chars ds.chars 0).toDouble)
  | none =>
    if -2 ^ 63 ≤ n.integer ∧ n.integer < 2 ^ 63 then some (.int (.ofInt n.integer)) else none

theorem isSome_literal?_iff : n.literal?.isSome = true ↔ n.Readable := by
  obtain ⟨negative, whole, fraction⟩ := n
  cases fraction with
  | some ds => exact iff_of_true rfl fun h => nomatch h
  | none =>
    rw [literal?, Readable]
    dsimp only
    split_ifs with hrange
    · exact iff_of_true rfl fun _ => hrange
    · exact iff_of_false Bool.false_ne_true fun h => hrange (h rfl)

theorem exists_cons_text : ∃ c cs, n.text = c :: cs ∧ (c = '-' ∨ c.isDigit = true) := by
  obtain ⟨c, cs, hcs, hc⟩ :=
    Reader.exists_cons_signed n.whole.nonempty n.whole.digit n.negative
  exact ⟨c, _, by rw [text, hcs, List.cons_append], hc⟩

theorem isSign_text : ∀ c ∈ n.text, isSign c = false := by
  have hdigits : ∀ ds : Digits, ∀ c ∈ ds.chars, isSign c = false := fun ds c hc =>
    (calm_of_isDigit (ds.digit c hc)).sign
  have hsigned : ∀ c ∈ Reader.signed n.negative n.whole.chars, isSign c = false := by
    rw [Reader.signed]
    split_ifs
    · exact List.forall_mem_cons.2 ⟨by decide, hdigits n.whole⟩
    · exact hdigits n.whole
  rw [text, List.forall_mem_append]
  refine ⟨hsigned, ?_⟩
  cases n.fraction with
  | some ds => exact List.forall_mem_cons.2 ⟨by decide, hdigits ds⟩
  | none => exact fun c hc => absurd hc List.not_mem_nil

section
variable {n : Numeral}

theorem literal_text {l : Literal} (h : n.literal? = some l) : Reader.literal n.text = .ok (l, []) := by
  obtain ⟨c, cs, hcs, hc⟩ := n.exists_cons_text
  obtain ⟨negative, whole, fraction⟩ := n
  cases fraction with
  | some ds =>
    obtain rfl := Option.some.inj h
    have hpoint : ∀ c ∈ ('.' :: ds.chars).head?, c.isDigit = false :=
      Reader.forall_head?_cons (by decide) _
    have hdot : Reader.char '.' ('.' :: ds.chars) = .ok ('.', ds.chars) := rfl
    have hfraction : Reader.run1 Char.isDigit (ds.chars ++ []) = .ok (ds.chars, []) :=
      Reader.run1_append ds.nonempty ds.digit (by simp)
    rw [List.append_nil] at hfraction
    have hfloat : Reader.float (text ⟨negative, whole, some ds⟩) =
        .ok ((Decimal.ofParts negative whole.chars ds.chars 0).toDouble, []) := by
      rw [text, Reader.float, Reader.bind_of_ok
        (Reader.signedDigits_append whole.nonempty whole.digit negative hpoint)]
      dsimp only
      rw [Reader.bind_of_ok hdot, Reader.bind_of_ok hfraction]
      rfl
    rw [hcs, Reader.literal_of_number hc, ← hcs]
    exact Reader.either_of_ok (Reader.map_of_ok hfloat)
  | none =>
    rw [literal?] at h
    dsimp only at h
    split_ifs at h with hrange
    obtain rfl := Option.some.inj h
    rw [text]
    dsimp only
    rw [List.append_nil]
    apply Reader.literal_of_int64 whole.nonempty whole.digit
    rw [Reader.int64OfDigits?_eq whole.nonempty whole.digit]
    exact if_pos hrange

/-- An integer of more than 64 bits is not read as a float, not as an integer and not as a string. -/
theorem literal_unread (h : n.literal? = none) : ∃ place, Reader.literal n.text = .error place := by
  obtain ⟨c, cs, hcs, hc⟩ := n.exists_cons_text
  obtain ⟨negative, whole, fraction⟩ := n
  cases fraction with
  | some ds => exact nomatch h
  | none =>
    rw [literal?] at h
    dsimp only at h
    split_ifs at h with hrange
    have hbare : text ⟨negative, whole, none⟩ = Reader.signed negative whole.chars :=
      List.append_nil _
    have hlong : Reader.int64OfDigits? (negative, whole.chars) = none :=
      (Reader.int64OfDigits?_eq whole.nonempty whole.digit negative).trans (if_neg hrange)
    have hint : Reader.int (Reader.signed negative whole.chars) =
        .error (Reader.signed negative whole.chars) := by
      rw [Reader.int, Reader.filterMap, Reader.signedDigits_signed whole.nonempty whole.digit]
      dsimp only
      rw [hlong]
    rw [hbare] at hcs ⊢
    rw [Reader.literal_digits whole.nonempty whole.digit,
      Reader.either_of_error (Reader.map_of_error hint), hcs]
    exact ⟨_, Reader.map_of_error (Reader.string_of_number hc)⟩

theorem uncut (n : Numeral) : Uncut n.text := by
  have hwhole : Uncut (Reader.signed n.negative n.whole.chars) := by
    have hdigits := uncut_digits n.whole.nonempty n.whole.digit
    rw [Reader.signed]
    split_ifs
    · exact .loose (by decide) (by decide) (by decide) (.inr hdigits)
    · exact hdigits
  rw [text]
  split
  · rename_i ds _
    have hdigits := uncut_digits ds.nonempty ds.digit
    have hpoint : Uncut ('.' :: ds.chars) := .loose (by decide) (by decide) (by decide) (.inr hdigits)
    exact ⟨hwhole.lexed.append hpoint.lexed (ends_cons (by decide) _),
      hwhole.trimmed.around hpoint.trimmed []⟩
  · rwa [List.append_nil]

end

end Numeral

/-! ## Terms -/

/-- A comparison of a field with a numeral as it may be written: blanks around the operator or none,
and `<>` for `!=`. -/
structure NumericTerm where
  field : String
  before : List Char
  op : CompareOp
  angle : Bool
  after : List Char
  numeral : Numeral
  plain : Plain field.toList
  spacing : ∀ c ∈ before ++ after, isSpacing c = true
  no_like : op ≠ .like
  no_notLike : op ≠ .notLike

namespace NumericTerm
variable (t : NumericTerm)

def sign : List Char := t.op.write ⟨false, false, t.angle⟩

/-- The text behind the field and the blanks after it. -/
def tail : List Char := t.sign ++ (t.after ++ t.numeral.text)

def text : List Char := t.field.toList ++ (t.before ++ t.tail)

/-- The condition that the term makes: the comparison, or its text where the numeral cannot be read. -/
def condition : Condition :=
  match t.numeral.literal? with
  | some l => .compare t.field t.op (.literal l)
  | none => .unread (String.ofList t.text) []

theorem spacing_before : ∀ c ∈ t.before, isSpacing c = true := fun c hc =>
  t.spacing c (List.mem_append_left _ hc)

theorem spacing_after : ∀ c ∈ t.after, isSpacing c = true := fun c hc =>
  t.spacing c (List.mem_append_right _ hc)

theorem mem_sign : ∀ c ∈ t.sign, c ∈ Reader.operatorSigns := by
  have hall : t.sign.all Reader.operatorSigns.contains = true := by
    rw [sign]
    generalize t.angle = angle
    cases hop : t.op with
    | eq | ne | gt | lt | ge | le => cases angle <;> decide
    | like => exact absurd hop t.no_like
    | notLike => exact absurd hop t.no_notLike
  exact fun c hc => List.contains_iff_mem.1 (List.all_eq_true.1 hall c hc)

theorem exists_cons_tail : ∃ c cs, t.tail = c :: cs ∧ c ∈ Reader.operatorSigns := by
  obtain ⟨c, cs, hcs, hc⟩ := Reader.exists_cons_compareOp ⟨false, false, t.angle⟩ t.no_like t.no_notLike
  exact ⟨c, _, by rw [tail, sign, hcs, List.cons_append], hc⟩

/-- No word and no blank starts with the sign of an operator. -/
theorem head_tail : ∀ c ∈ t.tail.head?, isWord c = false ∧ isSpacing c = false := by
  obtain ⟨c, cs, hcs, hc⟩ := t.exists_cons_tail
  have hall : Reader.operatorSigns.all (fun c => !isWord c && !isSpacing c) = true := by
    decide +kernel
  have hsign := List.all_eq_true.1 hall c hc
  rw [Bool.and_eq_true, Bool.not_eq_true', Bool.not_eq_true'] at hsign
  rw [hcs]
  exact Reader.forall_head?_cons hsign cs

theorem identifier_text : Reader.identifier t.text = .ok (t.field, t.before ++ t.tail) := by
  have hrest : ∀ c ∈ (t.before ++ t.tail).head?, isWord c = false := by
    cases hbefore : t.before with
    | nil => exact fun c hc => (t.head_tail c hc).1
    | cons c cs =>
      have hc : isSpacing c = true := t.spacing_before c (by rw [hbefore]; exact List.mem_cons_self)
      exact Reader.forall_head?_cons (isWord_of_isWhite (isWhite_of_isSpacing hc)) _
  have hread := Reader.identifier_plain t.plain hrest
  rwa [String.ofList_toList] at hread

/-- The text behind the field is neither IS nor NOT nor LIKE. -/
theorem keyword_tail {word : String} {w : Char} {letters : List Char}
    (htext : word.toList = w :: letters) (hw : w.isAlpha = true) :
    Reader.keyword word t.tail = .error t.tail := by
  obtain ⟨c, cs, hcs, hc⟩ := t.exists_cons_tail
  rw [hcs]
  exact Reader.keyword_of_head (Reader.toLower_operatorSigns hc hw) word htext

theorem blanks1_text : Reader.blanks1 (t.before ++ t.tail) = .error (t.before ++ t.tail) ∨
    Reader.blanks1 (t.before ++ t.tail) = .ok (t.before, t.tail) := by
  have hhead := fun c hc => (t.head_tail c hc).2
  by_cases hbefore : t.before = []
  · have hnone : ([] ++ t.tail).takeWhile isSpacing = [] :=
      Reader.takeWhile_append (fun c hc => absurd hc List.not_mem_nil) hhead
    refine Or.inl ?_
    rw [hbefore, Reader.blanks1, Reader.run1, hnone]
    rfl
  · exact Or.inr (Reader.run1_append hbefore t.spacing_before hhead)

theorem isNull_text : ∃ place, Reader.isNull t.text = .error place := by
  rw [Reader.isNull, Reader.bind_of_ok t.identifier_text]
  rcases t.blanks1_text with hblanks | hblanks
  · exact ⟨_, Reader.bind_of_error hblanks⟩
  · rw [Reader.bind_of_ok hblanks]
    exact ⟨_, Reader.bind_of_error (t.keyword_tail rfl rfl)⟩

theorem like_text : ∃ place, Reader.like t.text = .error place := by
  rw [Reader.like, Reader.bind_of_ok t.identifier_text]
  rcases t.blanks1_text with hblanks | hblanks
  · exact ⟨_, Reader.bind_of_error hblanks⟩
  · rw [Reader.bind_of_ok hblanks,
      Reader.bind_of_ok (Reader.negation_none (t.keyword_tail rfl rfl))]
    exact ⟨_, Reader.bind_of_error (t.keyword_tail rfl rfl)⟩

/-- Behind the operator there is no sign that would make it another one. -/
theorem head_operand : ∀ c ∈ (t.after ++ t.numeral.text).head?, c ≠ '=' ∧ c ≠ '>' := by
  have hpasses : ∀ c, isSpacing c = true ∨ c = '-' ∨ c.isDigit = true → c ≠ '=' ∧ c ≠ '>' := by
    intro c hc
    constructor
    · rintro rfl
      exact absurd hc (by decide)
    · rintro rfl
      exact absurd hc (by decide)
  cases hafter : t.after with
  | nil =>
    obtain ⟨c, cs, hcs, hc⟩ := t.numeral.exists_cons_text
    rw [List.nil_append, hcs]
    exact Reader.forall_head?_cons (hpasses c (Or.inr hc)) cs
  | cons c cs =>
    have hc : isSpacing c = true := t.spacing_after c (by rw [hafter]; exact List.mem_cons_self)
    exact Reader.forall_head?_cons (hpasses c (Or.inl hc)) _

/-- A comparison reads the field and the operator and then depends on the numeral. -/
theorem comparison_text : Reader.comparison t.text =
    (do
      let value ← Reader.operand
      return .compare t.field t.op value : Reader Condition) t.numeral.text := by
  have hbefore : Reader.blanks (t.before ++ t.tail) = .ok (t.before, t.tail) :=
    Reader.run_append t.spacing_before fun c hc => (t.head_tail c hc).2
  have hop : Reader.compareOp t.tail = .ok (t.op, t.after ++ t.numeral.text) :=
    Reader.compareOp_write _ t.no_like t.no_notLike t.head_operand
  have hafter : Reader.blanks (t.after ++ t.numeral.text) = .ok (t.after, t.numeral.text) :=
    Reader.run_append t.spacing_after fun c hc =>
      Reader.isSpacing_of_isWhite (t.numeral.uncut.trimmed.first c hc)
  rw [Reader.comparison, Reader.bind_of_ok t.identifier_text, Reader.bind_of_ok hbefore,
    Reader.bind_of_ok hop, Reader.bind_of_ok hafter]

theorem trimmed : Trimmed t.text := by
  have hmid : t.text = t.field.toList ++ ((t.before ++ (t.sign ++ t.after)) ++ t.numeral.text) := by
    simp only [text, tail, List.append_assoc]
  rw [hmid]
  exact (trimmed_word t.plain.nonempty t.plain.word).around t.numeral.uncut.trimmed _

theorem operand_numeral : Reader.operand t.numeral.text =
    (Operand.literal <$> Reader.literal) t.numeral.text := by
  obtain ⟨c, cs, hcs, hc⟩ := t.numeral.exists_cons_text
  have hsign : isSign c = false := by
    rcases hc with rfl | hc
    · decide
    · exact (calm_of_isDigit hc).sign
  rw [hcs]
  exact Reader.operand_of_head hsign

/-- The term is read as its comparison if the numeral can be read, and as no condition if not. -/
theorem whole?_condition : Reader.whole? .condition t.text =
    t.numeral.literal?.map fun l => .compare t.field t.op (.literal l) := by
  obtain ⟨_, hisNull⟩ := t.isNull_text
  obtain ⟨_, hlike⟩ := t.like_text
  have hterm : Reader.either Reader.isNull (Reader.either Reader.like Reader.comparison) t.text =
      Reader.comparison t.text := by
    rw [Reader.either_of_error hisNull, Reader.either_of_error hlike]
  cases hliteral : t.numeral.literal? with
  | some l =>
    have hoperand : Reader.operand t.numeral.text = .ok (.literal l, []) := by
      rw [operand_numeral]
      exact Reader.map_of_ok (Numeral.literal_text hliteral)
    refine Reader.whole?_eq_some_iff.2 (Reader.condition_alone t.trimmed ?_)
    rw [hterm, comparison_text, Reader.bind_of_ok hoperand]
    rfl
  | none =>
    obtain ⟨place, hunread⟩ := Numeral.literal_unread hliteral
    have hoperand : Reader.operand t.numeral.text = .error place := by
      rw [operand_numeral]
      exact Reader.map_of_error hunread
    have hcomparison : Reader.comparison t.text = .error place := by
      rw [comparison_text, Reader.bind_of_error hoperand]
    have hblanks := Reader.blanks_trimmed t.trimmed []
    rw [List.append_nil] at hblanks
    have hcondition : Reader.condition t.text = .error place := by
      rw [Reader.condition, Reader.bind_of_ok hblanks]
      exact Reader.bind_of_error (hterm.trans hcomparison)
    rw [Reader.whole?, Reader.whole, hcondition]
    rfl

theorem isSign_text : ∀ c ∈ t.text, isSign c = false := by
  have hsign : ∀ c ∈ t.sign, isSign c = false := by
    have hnone : Reader.operatorSigns.any isSign = false := by decide
    exact fun c hc => Bool.eq_false_iff.2 (List.any_eq_false.1 hnone c (t.mem_sign c hc))
  simp only [text, tail, List.forall_mem_append]
  exact ⟨fun c hc => (calm_of_isWord (isWord_of_isAsciiWord (t.plain.word c hc))).sign,
    fun c hc => (calm_of_isSpacing (t.spacing_before c hc)).sign, hsign,
    fun c hc => (calm_of_isSpacing (t.spacing_after c hc)).sign, t.numeral.isSign_text⟩

theorem ofText_text : Condition.ofText t.text = t.condition := by
  rw [Condition.ofText, whole?_condition, condition, placeholders_eq_nil t.isSign_text]
  cases t.numeral.literal? <;> rfl

end NumericTerm

/-! ## Terms in a WHERE clause -/

theorem lexed_run {word : List Char → Prop} {cs rest : List Char} (hcs : ∀ c ∈ cs, isLoose c = true)
    (h : Lexed word (fun _ => True) rest) : Lexed word (fun _ => True) (cs ++ rest) := by
  induction cs with
  | nil => exact h
  | cons c cs ih =>
    obtain ⟨hc, hcs⟩ := List.forall_mem_cons.1 hcs
    exact .loose hc trivial (ih hcs)

namespace NumericTerm
variable (t : NumericTerm)

/-- The field is the only word of the term that may be a keyword. -/
theorem lexed {word : List Char → Prop} (hfield : word t.field.toList)
    (hword : ∀ w, w ∉ reserved → word w) : Lexed word (fun _ => True) t.text := by
  have hspacing : ∀ c, isSpacing c = true → isLoose c = true := by
    intro c hc
    simp only [isSpacing, Bool.or_eq_true, beq_iff_eq] at hc
    rcases hc with ((rfl | rfl) | rfl) | rfl <;> decide
  have hall : Reader.operatorSigns.all isLoose = true := by decide
  have hsign := List.all_eq_true.1 hall
  have hnumeral : Lexed word (fun _ => True) t.numeral.text :=
    t.numeral.uncut.lexed.mono hword fun _ _ => trivial
  have htail : Lexed word (fun _ => True) t.tail :=
    lexed_run (fun c hc => hsign c (t.mem_sign c hc))
      (lexed_run (fun c hc => hspacing c (t.spacing_after c hc)) hnumeral)
  have hends : EndsWord (t.before ++ t.tail) := by
    cases hbefore : t.before with
    | nil =>
      obtain ⟨c, cs, hcs, hc⟩ := t.exists_cons_tail
      rw [List.nil_append, hcs]
      exact ends_cons (isAsciiWord_of_isLoose (hsign c hc)) cs
    | cons c cs =>
      have hc : isSpacing c = true := t.spacing_before c (by rw [hbefore]; exact List.mem_cons_self)
      exact ends_cons (isAsciiWord_of_isLoose (hspacing c hc)) _
  refine .word t.plain.nonempty t.plain.word ?_ hends
    (lexed_run (fun c hc => hspacing c (t.spacing_before c hc)) htail)
  rwa [map_toLower_plain t.plain]

/-- A term that stands alone in a WHERE clause, unless its field is called AND. -/
theorem conditionsOf_text (hand : t.field ≠ "and") : conditionsOf (some t.text) = [t.condition] := by
  have hlexed : Lexed (· ≠ "and".toList) (fun _ => True) t.text :=
    t.lexed (fun hsame => hand (String.toList_inj.1 hsame))
      fun w hw hsame => hw (hsame ▸ by decide)
  have hone := splitConjunction_intercalate (List.cons_ne_nil t.text []) trivial
    (List.forall_mem_singleton.2 hlexed) (List.forall_mem_singleton.2 t.trimmed)
  rw [List.intercalate_singleton] at hone
  rw [conditionsOf, hone, List.map_singleton, ofText_text]

section
variable {t : NumericTerm} {table : String} (htable : Names.isTable table = true)
  (hfield : FieldName t.field) (hand : t.field ≠ "and")
include htable hfield hand

theorem parse_delete : parse (String.ofList (deleteText table t.text)) =
    .ok (.delete ⟨folded table, [t.condition]⟩) := by
  have hlexed := t.lexed hfield.free fun w => free_of_not_mem_reserved
  rw [parse, String.toList_ofList, parse_deleteText htable hlexed t.trimmed, conditionsOf_text t hand]

theorem parse_update {column : String} (hcolumn : FieldName column) :
    parse (String.ofList (updateText table column t.text)) =
      .ok (.update ⟨folded table, [⟨column, .placeholder .positional⟩], 1, [t.condition]⟩) := by
  have hlexed := t.lexed hfield.free fun w => free_of_not_mem_reserved
  rw [parse, String.toList_ofList, parse_updateText htable hcolumn hlexed t.trimmed,
    conditionsOf_text t hand]

end

end NumericTerm

end RecordShelf.Sql

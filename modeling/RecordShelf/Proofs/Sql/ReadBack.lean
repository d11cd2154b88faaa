import RecordShelf.Proofs.Sql.Writing

/-!
# Reading written terms

Each term of a SELECT is read back from its text, and nothing of the text is left.
-/

namespace RecordShelf.Sql
open Text

namespace Reader
variable {cs rest : List Char}

section
variable {α β : Type} {reader : Reader α} {f : α → β}

theorem map_of_ok {a : α} (h : reader cs = .ok (a, rest)) : (f <$> reader) cs = .ok (f a, rest) := by
  change (reader >>= fun a => pure (f a)) cs = _
  rw [bind_of_ok h]
  rfl

theorem map_of_error {place : List Char} (h : reader cs = .error place) :
    (f <$> reader) cs = .error place := by
  change (reader >>= fun a => pure (f a)) cs = _
  exact bind_of_error h

end

/-! ## Operands -/

theorem stringChars_escaped (s : List Char) :
    stringChars '\'' (s.flatMap escaped ++ ['\'']) = (s, ['\'']) := by
  induction s with
  | nil => rfl
  | cons c s ih =>
    rw [List.flatMap_cons, List.append_assoc]
    by_cases hslash : c = '\\'
    · subst hslash
      have hescaped : escaped '\\' = ['\\', '\\'] := rfl
      rw [hescaped]
      show stringChars '\'' ('\\' :: '\\' :: (s.flatMap escaped ++ ['\''])) = _
      rw [stringChars, ih]
      rfl
    · by_cases hquote : c = '\''
      · subst hquote
        have hescaped : escaped '\'' = ['\'', '\''] := rfl
        rw [hescaped]
        show stringChars '\'' ('\'' :: '\'' :: (s.flatMap escaped ++ ['\''])) = _
        rw [stringChars, ih]
        · rfl
        · simp
      · have hescaped : escaped c = [c] := if_neg (not_or.2 ⟨hquote, hslash⟩)
        obtain ⟨d, more, hmore⟩ := List.exists_cons_of_ne_nil
          (List.append_ne_nil_of_right_ne_nil (s.flatMap escaped) (List.cons_ne_nil '\'' []))
        rw [hmore] at ih
        rw [hescaped, hmore]
        show stringChars '\'' (c :: d :: more) = _
        rw [stringChars, if_neg hquote, ih]
        simp [hslash]

theorem string_quote (s : List Char) : string (quote s) = .ok (String.ofList s, []) := by
  have hopen : char '\'' (quote s) = .ok ('\'', s.flatMap escaped ++ ['\'']) := rfl
  have hchars : (fun cs => .ok (stringChars '\'' cs) : Reader (List Char))
      (s.flatMap escaped ++ ['\'']) = .ok (s, ['\'']) := congrArg _ (stringChars_escaped s)
  have hclose : char '\'' ['\''] = .ok ('\'', []) := rfl
  have hquoted : quotedBy '\'' (quote s) = .ok (String.ofList s, []) := by
    rw [quotedBy, bind_of_ok hopen, bind_of_ok hchars, bind_of_ok hclose]
    rfl
  rw [string]
  exact either_of_ok hquoted

theorem keyword_of_head {word : List Char} {w c : Char} (hne : c.toLower ≠ w) (text : String)
    (htext : text.toList = w :: word) : keyword text (c :: cs) = .error (c :: cs) := by
  apply keyword_of_none
  rw [htext, dropWord?, if_neg hne]

/-- A text that starts with none of the letters of NULL, TRUE and FALSE is a number or a string. -/
theorem literal_of_head {c : Char} (hn : c.toLower ≠ 'n') (ht : c.toLower ≠ 't')
    (hf : c.toLower ≠ 'f') : literal (c :: cs) =
      either (Literal.float <$> float) (either (Literal.int <$> int) (Literal.string <$> string))
        (c :: cs) := by
  have hnull : keyword "null" (c :: cs) = .error (c :: cs) := keyword_of_head hn "null" rfl
  have htrue : keyword "true" (c :: cs) = .error (c :: cs) := keyword_of_head ht "true" rfl
  have hfalse : keyword "false" (c :: cs) = .error (c :: cs) := keyword_of_head hf "false" rfl
  rw [literal, either_of_error (bind_of_error hnull), either_of_error (bind_of_error htrue),
    either_of_error (bind_of_error hfalse)]

theorem literal_string (s : String) : literal (quote s.toList) = .ok (.string s, []) := by
  have hminus : optional (char '-') (quote s.toList) = .ok (none, quote s.toList) := rfl
  have hdigits : run1 Char.isDigit (quote s.toList) = .error (quote s.toList) := rfl
  have hsigned : signedDigits (quote s.toList) = .error (quote s.toList) := by
    rw [signedDigits, bind_of_ok hminus, bind_of_error hdigits]
  have hfloat : float (quote s.toList) = .error (quote s.toList) := by
    rw [float, bind_of_error hsigned]
  have hint : int (quote s.toList) = .error (quote s.toList) := by
    rw [int, filterMap, hsigned]
  have hstring : (Literal.string <$> string) (quote s.toList) =
      .ok (Literal.string (String.ofList s.toList), []) := map_of_ok (string_quote s.toList)
  have hhead := @literal_of_head (s.toList.flatMap escaped ++ ['\'']) '\'' (by decide) (by decide)
    (by decide)
  rw [String.ofList_toList] at hstring
  rw [quote, hhead, ← quote, either_of_error (map_of_error hfloat),
    either_of_error (map_of_error hint), hstring]

/-! ## Numbers -/

/-- Digits with a minus sign or without. -/
def signed (negative : Bool) (ds : List Char) : List Char := if negative then '-' :: ds else ds

/-- The integer of digits with a minus sign or without. -/
def signedValue (negative : Bool) (ds : List Char) : ℤ :=
  if negative then -(ofDecimalDigits ds : ℤ) else ofDecimalDigits ds

section
variable {ds : List Char} (hne : ds ≠ []) (hdigits : ∀ c ∈ ds, c.isDigit = true)
include hne hdigits

theorem exists_cons_digits : ∃ c more, ds = c :: more ∧ c.isDigit = true := by
  obtain ⟨c, more, hmore⟩ := List.exists_cons_of_ne_nil hne
  refine ⟨c, more, hmore, hdigits c ?_⟩
  rw [hmore]
  exact List.mem_cons_self

/-- A number starts with a minus sign or a digit. -/
theorem exists_cons_signed (negative : Bool) :
    ∃ c more, signed negative ds = c :: more ∧ (c = '-' ∨ c.isDigit = true) := by
  cases negative with
  | true => exact ⟨'-', _, rfl, Or.inl rfl⟩
  | false =>
    obtain ⟨c, more, hmore, hc⟩ := exists_cons_digits hne hdigits
    exact ⟨c, more, hmore, Or.inr hc⟩

theorem signedDigits_append (negative : Bool) (hrest : ∀ c ∈ rest.head?, c.isDigit = false) :
    signedDigits (signed negative ds ++ rest) = .ok ((negative, ds), rest) := by
  have hread : run1 Char.isDigit (ds ++ rest) = .ok (ds, rest) := run1_append hne hdigits hrest
  cases negative with
  | true =>
    have hminus : optional (char '-') ('-' :: (ds ++ rest)) = .ok (some '-', ds ++ rest) := rfl
    have htext : signed true ds ++ rest = '-' :: (ds ++ rest) := rfl
    rw [htext, signedDigits, bind_of_ok hminus, bind_of_ok hread]
    rfl
  | false =>
    have hminus : optional (char '-') (ds ++ rest) = .ok (none, ds ++ rest) := by
      obtain ⟨c, more, hmore, hc⟩ := exists_cons_digits hne hdigits
      have hsign : c ≠ '-' := by
        rintro rfl
        exact absurd hc (by decide)
      rw [hmore]
      simp [optional, char, satisfy, hsign]
    have htext : signed false ds ++ rest = ds ++ rest := rfl
    rw [htext, signedDigits, bind_of_ok hminus, bind_of_ok hread]
    rfl

theorem signedDigits_signed (negative : Bool) :
    signedDigits (signed negative ds) = .ok ((negative, ds), []) := by
  have hread : signedDigits (signed negative ds ++ []) = .ok ((negative, ds), []) :=
    signedDigits_append hne hdigits negative (by simp)
  rwa [List.append_nil] at hread

theorem readInt?_signed (negative : Bool) :
    readInt? (signed negative ds) = some (signedValue negative ds) := by
  have hbody : (ds.isEmpty || !ds.all Char.isDigit) = false := by
    rw [List.isEmpty_eq_false_iff.2 hne, List.all_eq_true.2 hdigits]
    rfl
  have hsign : takeSign (signed negative ds) = (negative, ds) := by
    cases negative with
    | true => rfl
    | false =>
      obtain ⟨c, more, rfl, hc⟩ := exists_cons_digits hne hdigits
      have hother : ∀ d : Char, d.isDigit = false → ∀ cs, c :: more ≠ d :: cs := by
        rintro d hd cs hcs
        rw [(List.cons.inj hcs).1, hd] at hc
        exact absurd hc Bool.false_ne_true
      rw [signed, if_neg Bool.false_ne_true, takeSign]
      · exact hother '-' (by decide)
      · exact hother '+' (by decide)
  rw [readInt?, hsign]
  dsimp only
  rw [hbody, if_neg Bool.false_ne_true, signedValue]

/-- An integer is read when it has 64 bits. -/
theorem int64OfDigits?_eq (negative : Bool) : int64OfDigits? (negative, ds) =
    if -2 ^ 63 ≤ signedValue negative ds ∧ signedValue negative ds < 2 ^ 63 then
      some (.ofInt (signedValue negative ds))
    else none := by
  have htext : (if negative = true then '-' :: ds else ds) = signed negative ds := rfl
  rw [int64OfDigits?, htext, readInt64?, readInt?_signed hne hdigits]
  rfl

end

/-- What starts with a minus sign or a digit is a number or a string. -/
theorem literal_of_number {c : Char} (hc : c = '-' ∨ c.isDigit = true) : literal (c :: cs) =
    either (Literal.float <$> float) (either (Literal.int <$> int) (Literal.string <$> string))
      (c :: cs) := by
  have hletter : ∀ w : Char, w.isAlpha = true → c.toLower ≠ w := by
    rintro w hw rfl
    rcases hc with rfl | hc
    · exact absurd hw (by decide)
    · rw [toLower_of_isDigit hc, isAlpha_of_isDigit hc] at hw
      exact absurd hw (by decide)
  exact literal_of_head (hletter 'n' rfl) (hletter 't' rfl) (hletter 'f' rfl)

section
variable {ds : List Char} (hne : ds ≠ []) (hdigits : ∀ c ∈ ds, c.isDigit = true) (negative : Bool)
include hne hdigits

/-- Digits without a point are no float. -/
theorem literal_digits : literal (signed negative ds) =
    either (Literal.int <$> int) (Literal.string <$> string) (signed negative ds) := by
  have hpoint : char '.' [] = .error [] := rfl
  have hfloat : float (signed negative ds) = .error [] := by
    rw [float, bind_of_ok (signedDigits_signed hne hdigits negative)]
    exact bind_of_error hpoint
  obtain ⟨c, more, hmore, hc⟩ := exists_cons_signed hne hdigits negative
  rw [hmore, literal_of_number hc, ← hmore, either_of_error (map_of_error hfloat)]

theorem literal_of_int64 {n : Int64} (h : int64OfDigits? (negative, ds) = some n) :
    literal (signed negative ds) = .ok (.int n, []) := by
  have hint : int (signed negative ds) = .ok (n, []) := by
    rw [int, filterMap, signedDigits_signed hne hdigits]
    dsimp only
    rw [h]
  rw [literal_digits hne hdigits]
  exact either_of_ok (map_of_ok hint)

end

theorem decimalInt_eq_signed (n : ℤ) :
    decimalInt n = signed (decide (n < 0)) (decimalDigits n.natAbs) := by
  rw [decimalInt, signed]
  simp only [decide_eq_true_eq]

theorem literal_int (n : Int64) : literal (decimalInt n.toInt) = .ok (.int n, []) := by
  have hvalue : signedValue (decide (n.toInt < 0)) (decimalDigits n.toInt.natAbs) = n.toInt := by
    rw [signedValue, ofDecimalDigits_decimalDigits]
    simp only [decide_eq_true_eq]
    omega
  have hrange : -2 ^ 63 ≤ n.toInt ∧ n.toInt < 2 ^ 63 := ⟨n.le_toInt, n.toInt_lt⟩
  have hdigits : ∀ c ∈ decimalDigits n.toInt.natAbs, c.isDigit = true :=
    fun c => isDigit_of_mem_decimalDigits
  rw [decimalInt_eq_signed]
  apply literal_of_int64 (decimalDigits_ne_nil _) hdigits
  rw [int64OfDigits?_eq (decimalDigits_ne_nil _) hdigits, hvalue, if_pos hrange, Int64.ofInt_toInt]

/-! ## Other operands -/

/-- A text that starts no placeholder is a literal. -/
theorem operand_of_head {c : Char} (hsign : isSign c = false) :
    operand (c :: cs) = (Operand.literal <$> literal) (c :: cs) := by
  rw [isSign, Bool.or_eq_false_iff] at hsign
  have hmark : char '?' (c :: cs) = .error (c :: cs) := by
    simp [char, satisfy, hsign.1]
  have hcolon : char ':' (c :: cs) = .error (c :: cs) := by
    simp [char, satisfy, hsign.2]
  have hplaceholder : placeholder (c :: cs) = .error (c :: cs) := by
    rw [placeholder, either_of_error (bind_of_error hmark)]
    exact bind_of_error hcolon
  rw [operand, either_of_error (map_of_error hplaceholder)]

theorem operand_of_literal {c : Char} {l : Literal} (hsign : isSign c = false)
    (h : literal (c :: cs) = .ok (l, rest)) : operand (c :: cs) = .ok (.literal l, rest) := by
  rw [operand_of_head hsign]
  exact map_of_ok h

theorem placeholder_named {name : String} (h : Plain name.toList) :
    placeholder (':' :: name.toList) = .ok (.named name, []) := by
  have hmark : char '?' (':' :: name.toList) = .error (':' :: name.toList) := rfl
  have hcolon : char ':' (':' :: name.toList) = .ok (':', name.toList) := rfl
  have hname : run1 isWord (name.toList ++ []) = .ok (name.toList, []) :=
    run1_append h.nonempty (fun c hc => isWord_of_isAsciiWord (h.word c hc)) (by simp)
  rw [List.append_nil] at hname
  rw [placeholder, either_of_error (bind_of_error hmark), bind_of_ok hcolon, bind_of_ok hname,
    String.ofList_toList]
  rfl

theorem operand_write {o : Operand} (h : o.Canonical) : operand o.write = .ok (o, []) := by
  cases o with
  | placeholder p =>
    cases p with
    | positional => rfl
    | named name =>
      have hname : CanonicalName name := h
      exact either_of_ok (map_of_ok (placeholder_named hname.plain))
  | literal l =>
    cases l with
    | null => rfl
    | bool b => cases b <;> rfl
    | int n =>
      obtain ⟨c, more, hmore, hc⟩ := exists_cons_signed (decimalDigits_ne_nil _)
        (fun c => isDigit_of_mem_decimalDigits) (decide (n.toInt < 0))
      rw [← decimalInt_eq_signed] at hmore
      have hread := literal_int n
      have hsign : isSign c = false := by
        rcases hc with rfl | hc
        · decide
        · exact (calm_of_isDigit hc).sign
      rw [hmore] at hread
      show operand (decimalInt n.toInt) = _
      rw [hmore]
      exact operand_of_literal hsign hread
    | float x => exact h.elim
    | string s => exact operand_of_literal (by decide) (literal_string s)

/-! ## Names and spaces -/

theorem identifier_spaced {name : String} (h : Plain name.toList) (rest : List Char) :
    identifier (name.toList ++ ' ' :: rest) = .ok (name, ' ' :: rest) := by
  have hspace : ∀ c ∈ (' ' :: rest).head?, isWord c = false := forall_head?_cons (by decide) rest
  rw [identifier_plain h hspace, String.ofList_toList]

theorem identifier_name {name : String} (h : CanonicalName name) :
    identifier name.toList = .ok (name, []) := by
  have hread : identifier (name.toList ++ []) = .ok (String.ofList name.toList, []) :=
    identifier_plain h.plain (by simp)
  rw [List.append_nil, String.ofList_toList] at hread
  exact hread

theorem isSpacing_of_isWhite {c : Char} (hc : isWhite c = false) : isSpacing c = false := by
  by_contra hspacing
  simp only [isSpacing, Bool.not_eq_false, Bool.or_eq_true, beq_iff_eq] at hspacing
  rcases hspacing with ((rfl | rfl) | rfl) | rfl <;> exact absurd hc (by decide)

theorem isSpacing_space : ∀ c ∈ [' '], isSpacing c = true :=
  List.forall_mem_singleton.2 (by decide)

section
variable {u : List Char}

theorem starts_trimmed (h : Trimmed u) (rest : List Char) :
    ∀ c ∈ (u ++ rest).head?, isSpacing c = false := by
  obtain ⟨d, cs, rfl⟩ := List.exists_cons_of_ne_nil h.nonempty
  intro c hc
  exact isSpacing_of_isWhite (h.first c hc)

theorem blanks_trimmed (h : Trimmed u) (rest : List Char) :
    blanks (u ++ rest) = .ok ([], u ++ rest) := by
  have hnone : ∀ c ∈ ([] : List Char), isSpacing c = true := fun c hc => absurd hc List.not_mem_nil
  exact run_append hnone (starts_trimmed h rest)

theorem blanks_space (h : Uncut u) (rest : List Char) :
    blanks (' ' :: (u ++ rest)) = .ok ([' '], u ++ rest) := by
  exact run_append isSpacing_space (starts_trimmed h.trimmed rest)

theorem blanks1_space (h : Uncut u) (rest : List Char) :
    blanks1 (' ' :: (u ++ rest)) = .ok ([' '], u ++ rest) := by
  exact run1_append (List.cons_ne_nil ' ' []) isSpacing_space (starts_trimmed h.trimmed rest)

theorem blanks_alone (h : Uncut u) : blanks (' ' :: u) = .ok ([' '], u) := by
  have hspace := blanks_space h []
  rwa [List.append_nil] at hspace

theorem blanks1_alone (h : Uncut u) : blanks1 (' ' :: u) = .ok ([' '], u) := by
  have hspace := blanks1_space h []
  rwa [List.append_nil] at hspace

end

/-! ## Conditions -/

/-- The signs that an operator other than LIKE starts with. -/
def operatorSigns : List Char := ['=', '<', '>', '!']

theorem exists_cons_compareOp (sp : Spelling) {op : CompareOp} (hlike : op ≠ .like)
    (hnotLike : op ≠ .notLike) : ∃ c cs, op.write sp = c :: cs ∧ c ∈ operatorSigns := by
  cases op with
  | eq => exact ⟨'=', [], rfl, by decide⟩
  | gt => exact ⟨'>', [], rfl, by decide⟩
  | lt => exact ⟨'<', [], rfl, by decide⟩
  | ge => exact ⟨'>', ['='], rfl, by decide⟩
  | le => exact ⟨'<', ['='], rfl, by decide⟩
  | ne =>
    change ∃ c cs, sp.different = c :: cs ∧ c ∈ operatorSigns
    rw [Spelling.different]
    split_ifs
    · exact ⟨'<', ['>'], rfl, by decide⟩
    · exact ⟨'!', ['='], rfl, by decide⟩
  | like => exact absurd rfl hlike
  | notLike => exact absurd rfl hnotLike

theorem toLower_operatorSigns {c w : Char} (hc : c ∈ operatorSigns) (hw : w.isAlpha = true) :
    c.toLower ≠ w := by
  have hall : operatorSigns.all (fun d => !d.toLower.isAlpha) = true := by decide
  have hsign := List.all_eq_true.1 hall c hc
  rintro rfl
  rw [hw] at hsign
  exact absurd hsign (by decide)

theorem text_of_head {word : List Char} {w c : Char} (hne : c ≠ w) :
    text (w :: word) (c :: cs) = .error (c :: cs) := by
  rw [text, dropText?, if_neg hne]

/-- An operator is read where no sign follows that would make it another one. -/
theorem compareOp_write (sp : Spelling) {op : CompareOp} (hlike : op ≠ .like)
    (hnotLike : op ≠ .notLike) (hrest : ∀ c ∈ rest.head?, c ≠ '=' ∧ c ≠ '>') :
    compareOp (op.write sp ++ rest) = .ok (op, rest) := by
  cases op with
  | ne =>
    change compareOp (sp.different ++ rest) = .ok (.ne, rest)
    rw [Spelling.different]
    split_ifs <;> rfl
  | eq => rfl
  | gt =>
    cases rest with
    | nil => rfl
    | cons c rest =>
      have hatLeast : text ['>', '='] ('>' :: c :: rest) = .error ('>' :: c :: rest) := by
        simp [text, dropText?, (hrest c rfl).1]
      show compareOp ('>' :: c :: rest) = _
      rw [compareOp, either_of_error (bind_of_error (text_of_head (by decide))),
        either_of_error (bind_of_error hatLeast)]
      rfl
  | lt =>
    cases rest with
    | nil => rfl
    | cons c rest =>
      have hatMost : text ['<', '='] ('<' :: c :: rest) = .error ('<' :: c :: rest) := by
        simp [text, dropText?, (hrest c rfl).1]
      have hangle : text ['<', '>'] ('<' :: c :: rest) = .error ('<' :: c :: rest) := by
        simp [text, dropText?, (hrest c rfl).2]
      have hdifferent : either (text ['!', '=']) (text ['<', '>']) ('<' :: c :: rest) =
          .error ('<' :: c :: rest) := hangle
      show compareOp ('<' :: c :: rest) = _
      rw [compareOp, either_of_error (bind_of_error hatMost),
        either_of_error (bind_of_error (text_of_head (by decide))),
        either_of_error (bind_of_error hdifferent)]
      rfl
  | ge => rfl
  | le => rfl
  | like => exact absurd rfl hlike
  | notLike => exact absurd rfl hnotLike

theorem negation_none {u : List Char} (hnot : keyword "not" u = .error u) :
    negation u = .ok (false, u) := by
  have hword : optional (do keyword "not"; let _ ← blanks1) u = .ok (none, u) := by
    rw [optional, bind_of_error hnot]
  rw [negation, bind_of_ok hword]
  rfl

theorem negation_not {u : List Char} (hu : Uncut u) :
    negation ("NOT".toList ++ ' ' :: u) = .ok (true, u) := by
  have hnot : keyword "not" ("NOT".toList ++ ' ' :: u) = .ok ((), ' ' :: u) :=
    keyword_cons (by decide) (by decide) u
  have hword : optional (do keyword "not"; let _ ← blanks1) ("NOT".toList ++ ' ' :: u) =
      .ok (some (), u) := by
    rw [optional, bind_of_ok hnot, bind_of_ok (blanks1_alone hu)]
    rfl
  rw [negation, bind_of_ok hword]
  rfl

section
variable {field : String} {value : Operand}

/-- The text behind the name is no IS. -/
theorem isNull_error (hfield : Plain field.toList) {u : List Char} (hu : Uncut u)
    (h : keyword "is" u = .error u) : isNull (field.toList ++ ' ' :: u) = .error u := by
  rw [isNull, bind_of_ok (identifier_spaced hfield u), bind_of_ok (blanks1_alone hu),
    bind_of_error h]

/-- The text behind the name is neither NOT nor LIKE. -/
theorem like_error (hfield : Plain field.toList) {u : List Char} (hu : Uncut u)
    (hnot : keyword "not" u = .error u) (hlike : keyword "like" u = .error u) :
    like (field.toList ++ ' ' :: u) = .error u := by
  rw [like, bind_of_ok (identifier_spaced hfield u), bind_of_ok (blanks1_alone hu),
    bind_of_ok (negation_none hnot), bind_of_error hlike]

theorem comparison_write (sp : Spelling) {op : CompareOp} (hlike : op ≠ .like)
    (hnotLike : op ≠ .notLike) (hfield : Plain field.toList) (hvalue : value.Canonical) :
    comparison (field.toList ++ ' ' :: (op.write sp ++ ' ' :: value.write)) =
      .ok (.compare field op value, []) := by
  have hname := identifier_spaced hfield (op.write sp ++ ' ' :: value.write)
  have hspace := blanks_space (uncut_compareOp sp op) (' ' :: value.write)
  have hop : compareOp (op.write sp ++ ' ' :: value.write) = .ok (op, ' ' :: value.write) :=
    compareOp_write sp hlike hnotLike (forall_head?_cons (by decide) _)
  rw [comparison, bind_of_ok hname, bind_of_ok hspace, bind_of_ok hop,
    bind_of_ok (blanks_alone hvalue.uncut), bind_of_ok (operand_write hvalue)]
  rfl

/-- LIKE and its operand, with NOT before it or without. -/
theorem like_write {negated : Bool} {u : List Char} (hfield : CanonicalName field)
    (hvalue : value.Canonical) (hu : Uncut u)
    (hnegation : negation u = .ok (negated, "LIKE".toList ++ ' ' :: value.write)) :
    like (field.toList ++ ' ' :: u) =
      .ok (.compare field (if negated then .notLike else .like) value, []) := by
  have hlike : keyword "like" ("LIKE".toList ++ ' ' :: value.write) =
      .ok ((), ' ' :: value.write) := keyword_cons (by decide) (by decide) _
  rw [like, bind_of_ok (identifier_spaced hfield.plain u), bind_of_ok (blanks1_alone hu),
    bind_of_ok hnegation, bind_of_ok hlike, bind_of_ok (blanks_alone hvalue.uncut),
    bind_of_ok (operand_write hvalue)]
  rfl

theorem isNull_write {negated : Bool} {u : List Char} (hfield : CanonicalName field) (hu : Uncut u)
    (hnegation : negation u = .ok (negated, "NULL".toList)) :
    isNull (field.toList ++ ' ' :: ("IS".toList ++ ' ' :: u)) = .ok (.isNull field negated, []) := by
  have hname := identifier_spaced hfield.plain ("IS".toList ++ ' ' :: u)
  have hspace := blanks1_space uncut_is (' ' :: u)
  have his : keyword "is" ("IS".toList ++ ' ' :: u) = .ok ((), ' ' :: u) :=
    keyword_cons (by decide) (by decide) u
  have hnull : keyword "null" "NULL".toList = .ok ((), []) := rfl
  rw [isNull, bind_of_ok hname, bind_of_ok hspace, bind_of_ok his, bind_of_ok (blanks1_alone hu),
    bind_of_ok hnegation, bind_of_ok hnull]
  rfl

/-- A condition stands alone in its text. -/
theorem condition_alone {u : List Char} {c : Condition} (hu : Trimmed u)
    (h : either isNull (either like comparison) u = .ok (c, [])) : condition u = .ok (c, []) := by
  have hbefore := blanks_trimmed hu []
  have hafter : blanks [] = .ok ([], []) := rfl
  rw [List.append_nil] at hbefore
  rw [condition, bind_of_ok hbefore, bind_of_ok h, bind_of_ok hafter]
  rfl

theorem condition_isNull (sp : Spelling) (hfield : CanonicalName field) (negated : Bool) :
    condition (Condition.write sp (.isNull field negated)) = .ok (.isNull field negated, []) := by
  have hcanonical : (Condition.isNull field negated).Canonical := hfield
  refine condition_alone (hcanonical.uncut sp).trimmed (either_of_ok ?_)
  cases negated with
  | false =>
    have htext : "IS NULL".toList = "IS".toList ++ ' ' :: "NULL".toList := by decide
    change isNull (field.toList ++ ' ' :: "IS NULL".toList) = _
    rw [htext]
    exact isNull_write hfield uncut_null (negation_none rfl)
  | true =>
    have htext : "IS NOT NULL".toList =
      "IS".toList ++ ' ' :: ("NOT".toList ++ ' ' :: "NULL".toList) := by decide
    change isNull (field.toList ++ ' ' :: "IS NOT NULL".toList) = _
    rw [htext]
    exact isNull_write hfield (uncut_not.spaced uncut_null) (negation_not uncut_null)

theorem condition_compare (sp : Spelling) (op : CompareOp) (hfield : CanonicalName field)
    (hvalue : value.Canonical) : condition (Condition.write sp (.compare field op value)) =
      .ok (.compare field op value, []) := by
  have hcanonical : (Condition.compare field op value).Canonical := ⟨hfield, hvalue⟩
  have htail := (uncut_compareOp sp op).spaced hvalue.uncut
  refine condition_alone (hcanonical.uncut sp).trimmed ?_
  change either isNull (either like comparison)
    (field.toList ++ ' ' :: (op.write sp ++ ' ' :: value.write)) = _
  by_cases hcase : op ≠ .like ∧ op ≠ .notLike
  · obtain ⟨c, cs, hcs, hc⟩ := exists_cons_compareOp sp hcase.1 hcase.2
    have hword : ∀ (text : String) (w : Char) (word : List Char), text.toList = w :: word →
        w.isAlpha = true → keyword text (op.write sp ++ ' ' :: value.write) =
          .error (op.write sp ++ ' ' :: value.write) := by
      intro text w word htext hw
      rw [hcs]
      exact keyword_of_head (toLower_operatorSigns hc hw) text htext
    have his := hword "is" 'i' ['s'] rfl rfl
    have hnot := hword "not" 'n' ['o', 't'] rfl rfl
    have hpattern := hword "like" 'l' ['i', 'k', 'e'] rfl rfl
    rw [either_of_error (isNull_error hfield.plain htail his),
      either_of_error (like_error hfield.plain htail hnot hpattern)]
    exact comparison_write sp hcase.1 hcase.2 hfield.plain hvalue
  · rw [not_and_or, not_not, not_not] at hcase
    rcases hcase with rfl | rfl
    · have his : keyword "is" ("LIKE".toList ++ ' ' :: value.write) =
          .error ("LIKE".toList ++ ' ' :: value.write) := keyword_of_none (by simp [dropWord?])
      have hnot : keyword "not" ("LIKE".toList ++ ' ' :: value.write) =
          .error ("LIKE".toList ++ ' ' :: value.write) := keyword_of_none (by simp [dropWord?])
      have hread := like_write hfield hvalue htail (negation_none hnot)
      rw [either_of_error (isNull_error hfield.plain htail his)]
      exact either_of_ok hread
    · have hsplit : CompareOp.write sp .notLike ++ ' ' :: value.write =
          "NOT".toList ++ ' ' :: ("LIKE".toList ++ ' ' :: value.write) := by
        change "NOT LIKE".toList ++ ' ' :: value.write = _
        rw [toList_notLike, List.append_assoc]
        rfl
      rw [hsplit] at htail ⊢
      have his : keyword "is" ("NOT".toList ++ ' ' :: ("LIKE".toList ++ ' ' :: value.write)) =
          .error ("NOT".toList ++ ' ' :: ("LIKE".toList ++ ' ' :: value.write)) :=
        keyword_of_none (by simp [dropWord?])
      have hread := like_write hfield hvalue htail (negation_not (uncut_like.spaced hvalue.uncut))
      rw [either_of_error (isNull_error hfield.plain htail his)]
      exact either_of_ok hread

end

/-! ## Select items -/

/-- No name is the beginning of a count. -/
theorem count_name {name : List Char} (h : Plain name) : whole? count name = none := by
  cases hread : whole? count name with
  | none => rfl
  | some label =>
    have hcount := whole?_eq_some_iff.1 hread
    rw [count] at hcount
    have hword : TakesQuiet (keyword "count") := .keyword (by decide)
    obtain ⟨_, w, _, rfl, -, hcount⟩ := hword.bind_ok hcount
    obtain ⟨_, v, _, rfl, -, hcount⟩ := TakesQuiet.blanks.bind_ok hcount
    obtain ⟨_, after, hopen, -⟩ := bind_ok hcount
    obtain rfl := char_ok hopen
    have hmem : '(' ∈ w ++ (v ++ '(' :: after) :=
      List.mem_append_right _ (List.mem_append_right _ List.mem_cons_self)
    exact absurd (h.word '(' hmem) (by decide)

/-- The count up to its label. -/
theorem count_rest (rest : List Char) : count ("COUNT".toList ++ '(' :: '*' :: ')' :: rest) =
    optional (do
      let _ ← blanks1
      let _ ← optional do
        keyword "as"
        let _ ← blanks1
      identifier) rest := by
  have hword : keyword "count" ("COUNT".toList ++ '(' :: '*' :: ')' :: rest) =
      .ok ((), '(' :: '*' :: ')' :: rest) := keyword_cons (by decide) (by decide) _
  rw [count, bind_of_ok hword]
  rfl

theorem count_label {label : String} (h : CanonicalName label) :
    count (Column.write (.count (some label))) = .ok (some label, []) := by
  have hsplit : Column.write (.count (some label)) =
      "COUNT".toList ++ '(' :: '*' :: ')' :: ' ' :: ("AS".toList ++ ' ' :: label.toList) := by
    change "COUNT(*)".toList ++ ' ' :: ("AS".toList ++ ' ' :: label.toList) = _
    rw [toList_count, List.append_assoc]
    rfl
  have hspace := blanks1_space uncut_as (' ' :: label.toList)
  have hword : keyword "as" ("AS".toList ++ ' ' :: label.toList) = .ok ((), ' ' :: label.toList) :=
    keyword_cons (by decide) (by decide) _
  have hpreceded : optional (do keyword "as"; let _ ← blanks1) ("AS".toList ++ ' ' :: label.toList) =
      .ok (some (), label.toList) := by
    rw [optional, bind_of_ok hword, bind_of_ok (blanks1_alone h.uncut)]
    rfl
  rw [hsplit, count_rest, optional, bind_of_ok hspace, bind_of_ok hpreceded, identifier_name h]

theorem orderItem_write (sp : Spelling) {item : OrderItem} (h : CanonicalName item.column) :
    orderItem (item.write sp) = .ok (item, []) := by
  obtain ⟨column, direction⟩ := item
  have hasc : orderItem (column.toList ++ ' ' :: "ASC".toList) = .ok (⟨column, .ascending⟩, []) := by
    rw [orderItem, bind_of_ok (identifier_spaced h.plain _)]
    rfl
  have hdesc : orderItem (column.toList ++ ' ' :: "DESC".toList) =
      .ok (⟨column, .descending⟩, []) := by
    rw [orderItem, bind_of_ok (identifier_spaced h.plain _)]
    rfl
  have hbare : orderItem column.toList = .ok (⟨column, .ascending⟩, []) := by
    rw [orderItem, bind_of_ok (identifier_name h)]
    rfl
  cases direction with
  | ascending =>
    rw [OrderItem.write]
    dsimp only
    split_ifs
    · exact hasc
    · exact hbare
  | descending => exact hdesc

end Reader

theorem Column.ofText_write {c : Column} (h : c.Canonical) : Column.ofText c.write = c := by
  cases c with
  | star => rfl
  | field name =>
    have hname : CanonicalName name := h
    have hstar : name.toList ≠ ['*'] := by
      intro hsame
      have hword := hname.plain.word '*' (by rw [hsame]; decide)
      exact absurd hword (by decide)
    have hread := Reader.whole?_eq_some_iff.2 (Reader.identifier_name hname)
    change Column.ofText name.toList = _
    rw [Column.ofText, if_neg hstar, Reader.count_name hname.plain, hread]
  | count label =>
    cases label with
    | none => rfl
    | some label =>
      have hread := Reader.whole?_eq_some_iff.2 (Reader.count_label (h label rfl))
      have hstar : Column.write (.count (some label)) ≠ ['*'] := by
        intro hsame
        have hfirst : some 'C' = some '*' := congrArg List.head? hsame
        exact absurd hfirst (by decide)
      rw [Column.ofText, if_neg hstar, hread]
  | other text => exact h.elim

theorem Condition.ofText_write (sp : Spelling) {c : Condition} (h : c.Canonical) :
    Condition.ofText (c.write sp) = c := by
  have hread : Reader.condition (c.write sp) = .ok (c, []) := by
    cases c with
    | compare field op value => exact Reader.condition_compare sp op h.1 h.2
    | isNull field negated => exact Reader.condition_isNull sp h negated
    | unread text placeholders => exact h.elim
  rw [Condition.ofText, Reader.whole?_eq_some_iff.2 hread, Option.getD_some]

theorem wholeOperand_write {o : Operand} (h : o.Canonical) : wholeOperand o.write = .ok o := by
  rw [wholeOperand, h.uncut.trimmed.trim_eq, Reader.whole, Reader.operand_write h]
  rfl

end RecordShelf.Sql

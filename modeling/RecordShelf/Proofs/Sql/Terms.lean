import Mathlib.Data.List.TakeWhile
import RecordShelf.Proofs.Sql.Quiet
import RecordShelf.Sql.Parse

/-!
# What terms are made of

Readers of names, keywords, signs and literals take quiet text. An assignment and a condition end in
their operand, so that a placeholder in them is the last thing that they hold.
-/

namespace RecordShelf.Sql
open Text

namespace Reader
variable {α β : Type} {reader : Reader α} {cs rest : List Char}

theorem bind_ok {f : α → Reader β} {b : β} (h : (reader >>= f) cs = .ok (b, rest)) :
    ∃ a mid, reader cs = .ok (a, mid) ∧ f a mid = .ok (b, rest) := by
  cases hreader : reader cs with
  | error place =>
    rw [bind_of_error hreader] at h
    exact absurd h (by simp)
  | ok result =>
    obtain ⟨a, mid⟩ := result
    rw [bind_of_ok hreader] at h
    exact ⟨a, mid, rfl, h⟩

theorem pure_ok {a b : α} (h : (pure a : Reader α) cs = .ok (b, rest)) : a = b ∧ cs = rest :=
  Prod.mk.inj (Except.ok.inj h)

theorem map_ok {f : α → β} {b : β} (h : (f <$> reader) cs = .ok (b, rest)) :
    ∃ a, reader cs = .ok (a, rest) ∧ f a = b := by
  have hbind : (reader >>= fun a => pure (f a)) cs = .ok (b, rest) := h
  obtain ⟨a, mid, ha, hpure⟩ := bind_ok hbind
  obtain ⟨hb, rfl⟩ := pure_ok hpure
  exact ⟨a, ha, hb⟩

theorem either_ok {second : Reader α} {a : α} (h : either reader second cs = .ok (a, rest)) :
    reader cs = .ok (a, rest) ∨ second cs = .ok (a, rest) := by
  rw [either] at h
  split at h
  · rename_i hfirst
    rw [hfirst]
    exact Or.inl h
  · exact Or.inr h

/-- Whatever the reader takes is quiet. -/
def TakesQuiet (reader : Reader α) : Prop :=
  ∀ cs a rest, reader cs = .ok (a, rest) → ∃ w, cs = w ++ rest ∧ Quiet w

namespace TakesQuiet

theorem pure (a : α) : TakesQuiet (Pure.pure a : Reader α) := by
  intro cs b rest h
  obtain ⟨-, rfl⟩ := pure_ok h
  exact ⟨[], rfl, Quiet.nil⟩

theorem bind {f : α → Reader β} (hreader : TakesQuiet reader) (hf : ∀ a, TakesQuiet (f a)) :
    TakesQuiet (reader >>= f) := by
  intro cs b rest h
  obtain ⟨a, mid, ha, hb⟩ := Reader.bind_ok h
  obtain ⟨w, rfl, hw⟩ := hreader _ _ _ ha
  obtain ⟨v, rfl, hv⟩ := hf a _ _ _ hb
  exact ⟨w ++ v, (List.append_assoc w v rest).symm, hw.append hv⟩

/-- What a sequence does behind the quiet text that its first reader takes. -/
theorem bind_ok {f : α → Reader β} {b : β} (hreader : TakesQuiet reader)
    (h : (reader >>= f) cs = .ok (b, rest)) :
    ∃ a w mid, cs = w ++ mid ∧ Quiet w ∧ f a mid = .ok (b, rest) := by
  obtain ⟨a, mid, ha, hb⟩ := Reader.bind_ok h
  obtain ⟨w, hsplit, hw⟩ := hreader _ _ _ ha
  exact ⟨a, w, mid, hsplit, hw, hb⟩

theorem map {f : α → β} (hreader : TakesQuiet reader) : TakesQuiet (f <$> reader) := by
  intro cs b rest h
  obtain ⟨a, ha, -⟩ := map_ok h
  exact hreader _ _ _ ha

theorem either {second : Reader α} (hfirst : TakesQuiet reader) (hsecond : TakesQuiet second) :
    TakesQuiet (Reader.either reader second) := by
  intro cs a rest h
  rcases either_ok h with h | h
  · exact hfirst _ _ _ h
  · exact hsecond _ _ _ h

theorem optional (hreader : TakesQuiet reader) : TakesQuiet (Reader.optional reader) := by
  intro cs a rest h
  rw [Reader.optional] at h
  split at h
  · rename_i hread
    obtain ⟨-, rfl⟩ := Prod.mk.inj (Except.ok.inj h)
    exact hreader _ _ _ hread
  · obtain ⟨-, rfl⟩ := Prod.mk.inj (Except.ok.inj h)
    exact ⟨[], rfl, Quiet.nil⟩

theorem filterMap {f : α → Option β} (hreader : TakesQuiet reader) :
    TakesQuiet (Reader.filterMap reader f) := by
  intro cs b rest h
  rw [Reader.filterMap] at h
  split at h
  · rename_i hread
    split at h
    · obtain ⟨-, rfl⟩ := Prod.mk.inj (Except.ok.inj h)
      exact hreader _ _ _ hread
    · exact absurd h (by simp)
  · exact absurd h (by simp)

theorem satisfy {p : Char → Bool} (hp : ∀ c, p c = true → Calm c) : TakesQuiet (Reader.satisfy p) := by
  intro cs c rest h
  cases cs with
  | nil => exact absurd h (by simp [Reader.satisfy])
  | cons d cs =>
    rw [Reader.satisfy] at h
    split_ifs at h with hd
    obtain ⟨rfl, rfl⟩ := Prod.mk.inj (Except.ok.inj h)
    exact ⟨[d], rfl, Quiet.of_calm (List.forall_mem_singleton.2 (hp d hd))⟩

theorem char {c : Char} (hc : Calm c) : TakesQuiet (Reader.char c) :=
  satisfy fun d hd => by rw [beq_iff_eq.1 hd]; exact hc

theorem run {p : Char → Bool} (hp : ∀ c, p c = true → Calm c) : TakesQuiet (Reader.run p) := by
  intro cs a rest h
  obtain ⟨-, rfl⟩ := Prod.mk.inj (Except.ok.inj h)
  exact ⟨cs.takeWhile p, List.takeWhile_append_dropWhile.symm,
    Quiet.of_calm fun c hc => hp c (List.mem_takeWhile_imp hc)⟩

theorem run1 {p : Char → Bool} (hp : ∀ c, p c = true → Calm c) : TakesQuiet (Reader.run1 p) := by
  intro cs a rest h
  rw [Reader.run1] at h
  split_ifs at h
  exact run hp _ _ _ h

theorem blanks : TakesQuiet Reader.blanks := run fun _ => calm_of_isSpacing

theorem blanks1 : TakesQuiet Reader.blanks1 := run1 fun _ => calm_of_isSpacing

end TakesQuiet

theorem dropText?_eq {word : List Char} (h : dropText? word cs = some rest) : cs = word ++ rest := by
  induction word generalizing cs with
  | nil => exact Option.some.inj h
  | cons w word ih =>
    cases cs with
    | nil => exact absurd h (by simp [dropText?])
    | cons c cs =>
      rw [dropText?] at h
      split_ifs at h with hc
      rw [hc, ih h]
      rfl

theorem dropWord?_calm {word : List Char} (hword : word.all Char.isAlpha = true)
    (h : dropWord? word cs = some rest) : ∃ v, cs = v ++ rest ∧ ∀ c ∈ v, Calm c := by
  induction word generalizing cs with
  | nil => exact ⟨[], Option.some.inj h, fun c hc => absurd hc List.not_mem_nil⟩
  | cons w word ih =>
    obtain ⟨hw, hword⟩ := Bool.and_eq_true_iff.1 (List.all_cons.symm.trans hword)
    cases cs with
    | nil => exact absurd h (by simp [dropWord?])
    | cons c cs =>
      rw [dropWord?] at h
      split_ifs at h with hc
      obtain ⟨v, rfl, hv⟩ := ih hword h
      exact ⟨c :: v, rfl, List.forall_mem_cons.2 ⟨calm_of_toLower hw hc, hv⟩⟩

theorem char_ok {c d : Char} (h : char c cs = .ok (d, rest)) : cs = c :: rest := by
  cases cs with
  | nil => exact absurd h (by simp [char, satisfy])
  | cons e cs =>
    rw [char, satisfy] at h
    split_ifs at h with he
    obtain ⟨-, rfl⟩ := Prod.mk.inj (Except.ok.inj h)
    rw [beq_iff_eq.1 he]

theorem run1_ok {p : Char → Bool} {word : List Char} (h : run1 p cs = .ok (word, rest)) :
    cs = word ++ rest ∧ ∀ c ∈ word, p c = true := by
  rw [run1] at h
  split_ifs at h
  obtain ⟨rfl, rfl⟩ := Prod.mk.inj (Except.ok.inj h)
  exact ⟨List.takeWhile_append_dropWhile.symm, fun c hc => List.mem_takeWhile_imp hc⟩

namespace TakesQuiet

theorem text {word : List Char} (hword : ∀ c ∈ word, Calm c) : TakesQuiet (Reader.text word) := by
  intro cs a rest h
  rw [Reader.text] at h
  split at h
  · rename_i hdrop
    obtain ⟨-, rfl⟩ := Prod.mk.inj (Except.ok.inj h)
    exact ⟨word, dropText?_eq hdrop, Quiet.of_calm hword⟩
  · exact absurd h (by simp)

theorem keyword {word : String} (hword : word.toList.all Char.isAlpha = true) :
    TakesQuiet (Reader.keyword word) := by
  intro cs a rest h
  have hdrop : dropWord? word.toList cs = some rest := by
    rw [Reader.keyword] at h
    split at h
    · exact absurd h (by simp)
    · rename_i hdrop
      obtain ⟨-, rfl⟩ := Prod.mk.inj (Except.ok.inj h)
      exact hdrop
    · rename_i hdrop
      split_ifs at h
      obtain ⟨-, rfl⟩ := Prod.mk.inj (Except.ok.inj h)
      exact hdrop
  obtain ⟨v, hsplit, hv⟩ := dropWord?_calm hword hdrop
  exact ⟨v, hsplit, Quiet.of_calm hv⟩

end TakesQuiet

/-! ## The parts of terms -/

theorem calm_minus : Calm '-' := by constructor <;> decide

theorem calm_point : Calm '.' := by constructor <;> decide

theorem calm_equals : Calm '=' := by constructor <;> decide

theorem takesQuiet_bareName : TakesQuiet bareName := .run1 fun _ => calm_of_isWord

theorem takesQuiet_quotedName : TakesQuiet (do
    let _ ← char '`'
    let name ← bareName
    let _ ← char '`'
    return name) := by
  intro cs name rest h
  obtain ⟨_, opened, hopen, h⟩ := bind_ok h
  obtain ⟨word, closed, hword, h⟩ := bind_ok h
  obtain ⟨_, after, hclose, h⟩ := bind_ok h
  obtain ⟨-, rfl⟩ := pure_ok h
  obtain ⟨rfl, hall⟩ := run1_ok hword
  rw [char_ok hclose] at hopen
  refine ⟨'`' :: (word ++ ['`']), ?_, (enclosed_of_isWord hall).inside.quiet (Or.inr (Or.inr rfl))⟩
  rw [char_ok hopen, List.cons_append, List.append_assoc]
  rfl

theorem takesQuiet_identifier : TakesQuiet identifier :=
  .bind (.either takesQuiet_quotedName takesQuiet_bareName) fun _ => .pure _

theorem takesQuiet_signedDigits : TakesQuiet signedDigits :=
  .bind (.optional (.char calm_minus)) fun _ =>
    .bind (.run1 fun _ => calm_of_isDigit) fun _ => .pure _

theorem takesQuiet_float : TakesQuiet float :=
  .bind takesQuiet_signedDigits fun _ => .bind (.char calm_point) fun _ =>
    .bind (.run1 fun _ => calm_of_isDigit) fun _ => .pure _

theorem takesQuiet_int : TakesQuiet int := .filterMap takesQuiet_signedDigits

/-- A string stands between its quotes. -/
theorem quotedBy_ok {q : Char} (hq : q = '\'' ∨ q = '"') {cs rest : List Char} {s : String}
    (h : quotedBy q cs = .ok (s, rest)) : ∃ w, cs = q :: (w ++ q :: rest) ∧ Enclosed q w := by
  obtain ⟨_, opened, hopen, h⟩ := bind_ok h
  obtain ⟨chars, closed, hchars, h⟩ := bind_ok h
  obtain ⟨_, after, hclose, h⟩ := bind_ok h
  obtain ⟨-, rfl⟩ := pure_ok h
  obtain ⟨w, rfl, hw⟩ := enclosed_stringChars hq (Except.ok.inj hchars)
  rw [char_ok hclose] at hopen
  exact ⟨w, char_ok hopen, hw⟩

theorem takesQuiet_quotedBy {q : Char} (hq : q = '\'' ∨ q = '"') : TakesQuiet (quotedBy q) := by
  intro cs s rest h
  obtain ⟨w, rfl, hw⟩ := quotedBy_ok hq h
  refine ⟨q :: (w ++ [q]), ?_, hw.inside.quiet (hq.imp_right Or.inl)⟩
  rw [List.cons_append, List.append_assoc]
  rfl

theorem takesQuiet_literal : TakesQuiet literal :=
  .either (.bind (.keyword (by decide)) fun _ => .pure _) <|
  .either (.bind (.keyword (by decide)) fun _ => .pure _) <|
  .either (.bind (.keyword (by decide)) fun _ => .pure _) <|
  .either (.map takesQuiet_float) <|
  .either (.map takesQuiet_int) <|
  .map (.either (takesQuiet_quotedBy (Or.inl rfl)) (takesQuiet_quotedBy (Or.inr rfl)))

theorem takesQuiet_compareOp : TakesQuiet compareOp := by
  have hless : Calm '<' := by constructor <;> decide
  have hgreater : Calm '>' := by constructor <;> decide
  have hnot : Calm '!' := by constructor <;> decide
  have hone : ∀ {c : Char}, Calm c → ∀ d ∈ [c], Calm d := fun hc => List.forall_mem_singleton.2 hc
  have htwo : ∀ {c e : Char}, Calm c → Calm e → ∀ d ∈ [c, e], Calm d := fun hc he =>
    List.forall_mem_cons.2 ⟨hc, hone he⟩
  exact
    .either (.bind (.text (htwo hless calm_equals)) fun _ => .pure _) <|
    .either (.bind (.text (htwo hgreater calm_equals)) fun _ => .pure _) <|
    .either (.bind (.either (.text (htwo hnot calm_equals)) (.text (htwo hless hgreater)))
      fun _ => .pure _) <|
    .either (.bind (.text (hone calm_equals)) fun _ => .pure _) <|
    .either (.bind (.text (hone hless)) fun _ => .pure _) <|
    .bind (.text (hone hgreater)) fun _ => .pure _

theorem takesQuiet_negation : TakesQuiet negation :=
  .bind (.optional (.bind (.keyword (by decide)) fun _ => .bind .blanks1 fun _ => .pure _))
    fun _ => .pure _

theorem takesQuiet_tableName : TakesQuiet tableName :=
  .bind .blanks fun _ => takesQuiet_identifier

theorem takesQuiet_twoWords {first second : String} (hfirst : first.toList.all Char.isAlpha = true)
    (hsecond : second.toList.all Char.isAlpha = true) : TakesQuiet (twoWords first second) :=
  .bind (.keyword hfirst) fun _ => .bind .blanks1 fun _ => .keyword hsecond

theorem takesQuiet_leading : TakesQuiet leading :=
  .either (.bind (takesQuiet_twoWords (by decide) (by decide)) fun _ => .pure _) <|
  .either (.bind (.keyword (by decide)) fun _ => .pure _) <|
  .either (.bind (.keyword (by decide)) fun _ => .pure _) <|
  .either (.bind (.keyword (by decide)) fun _ => .pure _) <|
  .either (.bind (takesQuiet_twoWords (by decide) (by decide)) fun _ => .pure _) <|
  .bind (takesQuiet_twoWords (by decide) (by decide)) fun _ => .pure _

end Reader

/-! ## Operands at the end -/

/-- The text of a placeholder. -/
def Placeholder.written : Placeholder → List Char
  | .positional => ['?']
  | .named name => ':' :: name.toList

/-- The text is a sign with characters behind it that change nothing for a scan. -/
def Placeholder.Readable (p : Placeholder) : Prop :=
  ∃ sign name, p.written = sign :: name ∧ isSign sign = true ∧ ∀ c ∈ name, Calm c

theorem Placeholder.Readable.signs {p : Placeholder} (hp : p.Readable) : signs p.written = 1 := by
  obtain ⟨sign, name, hwritten, hsign, hname⟩ := hp
  have hstep : ScanState.start.step sign = (.code 0, .start) := by
    rw [isSign, Bool.or_eq_true, beq_iff_eq, beq_iff_eq] at hsign
    rcases hsign with rfl | rfl <;> rfl
  rw [hwritten, Sql.signs, signsFrom_cons, hstep, if_pos ⟨by simp, hsign⟩,
    signsFrom_eq_zero fun c hc => (hname c hc).sign]

namespace Reader
variable {cs rest : List Char}

theorem placeholder_ok {p : Placeholder} (h : placeholder cs = .ok (p, rest)) :
    cs = p.written ++ rest ∧ p.Readable := by
  rcases either_ok h with h | h
  · obtain ⟨_, mid, hchar, h⟩ := bind_ok h
    obtain ⟨rfl, rfl⟩ := pure_ok h
    exact ⟨char_ok hchar, '?', [], rfl, rfl, fun c hc => absurd hc List.not_mem_nil⟩
  · obtain ⟨_, mid, hchar, h⟩ := bind_ok h
    obtain ⟨name, after, hname, h⟩ := bind_ok h
    obtain ⟨rfl, rfl⟩ := pure_ok h
    obtain ⟨rfl, hword⟩ := run1_ok hname
    have hwritten : (Placeholder.named (String.ofList name)).written = ':' :: name := by
      rw [Placeholder.written, String.toList_ofList]
    refine ⟨?_, ':', name, hwritten, rfl, fun c hc => calm_of_isWord (hword c hc)⟩
    rw [char_ok hchar, hwritten]
    rfl

theorem operand_ok {o : Operand} (h : operand cs = .ok (o, rest)) :
    (∃ p, o = .placeholder p ∧ cs = p.written ++ rest ∧ p.Readable) ∨
      ∃ l w, o = .literal l ∧ cs = w ++ rest ∧ Quiet w := by
  rcases either_ok h with h | h
  · obtain ⟨p, hp, rfl⟩ := map_ok h
    exact Or.inl ⟨p, rfl, placeholder_ok hp⟩
  · obtain ⟨l, hl, rfl⟩ := map_ok h
    obtain ⟨w, hsplit, hw⟩ := takesQuiet_literal _ _ _ hl
    exact Or.inr ⟨l, w, rfl, hsplit, hw⟩

theorem assignment_ok {a : Assignment} (h : assignment cs = .ok (a, rest)) :
    ∃ w mid, cs = w ++ mid ∧ Quiet w ∧ operand mid = .ok (a.value, rest) := by
  obtain ⟨column, w₁, _, rfl, hw₁, h⟩ := takesQuiet_identifier.bind_ok h
  obtain ⟨_, w₂, _, rfl, hw₂, h⟩ := TakesQuiet.blanks.bind_ok h
  obtain ⟨_, w₃, _, rfl, hw₃, h⟩ := (TakesQuiet.char calm_equals).bind_ok h
  obtain ⟨_, w₄, mid, rfl, hw₄, h⟩ := TakesQuiet.blanks.bind_ok h
  obtain ⟨value, _, hvalue, h⟩ := bind_ok h
  obtain ⟨rfl, rfl⟩ := pure_ok h
  exact ⟨w₁ ++ (w₂ ++ (w₃ ++ w₄)), mid, by simp only [List.append_assoc],
    hw₁.append (hw₂.append (hw₃.append hw₄)), hvalue⟩

/-- What a reader of a condition without its blanks has found. -/
def EndsInOperand (cs rest : List Char) (c : Condition) : Prop :=
  (∃ field negated w, c = .isNull field negated ∧ cs = w ++ rest ∧ Quiet w) ∨
    ∃ field op o w mid, c = .compare field op o ∧ cs = w ++ mid ∧ Quiet w ∧
      operand mid = .ok (o, rest)

theorem isNull_ok {c : Condition} (h : isNull cs = .ok (c, rest)) : EndsInOperand cs rest c := by
  have hquiet : TakesQuiet isNull :=
    .bind takesQuiet_identifier fun _ => .bind .blanks1 fun _ => .bind (.keyword (by decide))
      fun _ => .bind .blanks1 fun _ => .bind takesQuiet_negation fun _ =>
        .bind (.keyword (by decide)) fun _ => .pure _
  obtain ⟨w, hsplit, hw⟩ := hquiet _ _ _ h
  obtain ⟨field, _, _, h⟩ := bind_ok h
  obtain ⟨_, _, _, h⟩ := bind_ok h
  obtain ⟨_, _, _, h⟩ := bind_ok h
  obtain ⟨_, _, _, h⟩ := bind_ok h
  obtain ⟨negated, _, _, h⟩ := bind_ok h
  obtain ⟨_, _, _, h⟩ := bind_ok h
  obtain ⟨rfl, -⟩ := pure_ok h
  exact Or.inl ⟨field, negated, w, rfl, hsplit, hw⟩

theorem like_ok {c : Condition} (h : like cs = .ok (c, rest)) : EndsInOperand cs rest c := by
  obtain ⟨field, w₁, _, rfl, hw₁, h⟩ := takesQuiet_identifier.bind_ok h
  obtain ⟨_, w₂, _, rfl, hw₂, h⟩ := TakesQuiet.blanks1.bind_ok h
  obtain ⟨negated, w₃, _, rfl, hw₃, h⟩ := takesQuiet_negation.bind_ok h
  obtain ⟨_, w₄, _, rfl, hw₄, h⟩ := (TakesQuiet.keyword (by decide)).bind_ok h
  obtain ⟨_, w₅, mid, rfl, hw₅, h⟩ := TakesQuiet.blanks.bind_ok h
  obtain ⟨value, _, hvalue, h⟩ := bind_ok h
  obtain ⟨rfl, rfl⟩ := pure_ok h
  exact Or.inr ⟨field, _, value, w₁ ++ (w₂ ++ (w₃ ++ (w₄ ++ w₅))), mid, rfl,
    by simp only [List.append_assoc], hw₁.append (hw₂.append (hw₃.append (hw₄.append hw₅))), hvalue⟩

theorem comparison_ok {c : Condition} (h : comparison cs = .ok (c, rest)) :
    EndsInOperand cs rest c := by
  obtain ⟨field, w₁, _, rfl, hw₁, h⟩ := takesQuiet_identifier.bind_ok h
  obtain ⟨_, w₂, _, rfl, hw₂, h⟩ := TakesQuiet.blanks.bind_ok h
  obtain ⟨op, w₃, _, rfl, hw₃, h⟩ := takesQuiet_compareOp.bind_ok h
  obtain ⟨_, w₄, mid, rfl, hw₄, h⟩ := TakesQuiet.blanks.bind_ok h
  obtain ⟨value, _, hvalue, h⟩ := bind_ok h
  obtain ⟨rfl, rfl⟩ := pure_ok h
  exact Or.inr ⟨field, op, value, w₁ ++ (w₂ ++ (w₃ ++ w₄)), mid, rfl,
    by simp only [List.append_assoc], hw₁.append (hw₂.append (hw₃.append hw₄)), hvalue⟩

/-- A condition that is read to the end of a text without white space there. -/
theorem condition_ok {c : Condition} (hend : ∀ d ∈ cs.getLast?, isWhite d = false)
    (h : condition cs = .ok (c, [])) : ∃ w mid, cs = w ++ mid ∧ Quiet w ∧ EndsInOperand mid [] c := by
  obtain ⟨_, w, mid, rfl, hw, h⟩ := TakesQuiet.blanks.bind_ok h
  obtain ⟨found, after, hfound, h⟩ := bind_ok h
  obtain ⟨blank, last, hblank, h⟩ := bind_ok h
  obtain ⟨rfl, rfl⟩ := pure_ok h
  have hends : EndsInOperand mid after found := by
    rcases either_ok hfound with h | h
    · exact isNull_ok h
    · rcases either_ok h with h | h
      · exact like_ok h
      · exact comparison_ok h
  have hspacing : ∀ d ∈ after, isSpacing d = true := by
    have hdrop : after.dropWhile isSpacing = [] := (Prod.mk.inj (Except.ok.inj hblank)).2
    exact List.dropWhile_eq_nil_iff.1 hdrop
  have hsuffix : ∃ v, mid = v ++ after := by
    rcases hends with ⟨_, _, v, _, hsplit, _⟩ | ⟨_, _, o, v, m, _, rfl, _, ho⟩
    · exact ⟨v, hsplit⟩
    · rcases operand_ok ho with ⟨p, _, rfl, _⟩ | ⟨_, u, _, rfl, _⟩
      · exact ⟨v ++ p.written, (List.append_assoc _ _ _).symm⟩
      · exact ⟨v ++ u, (List.append_assoc _ _ _).symm⟩
  have hnil : after = [] := by
    by_contra hne
    obtain ⟨v, rfl⟩ := hsuffix
    have hmem := List.getLast?_eq_some_getLast hne
    have hlast : (w ++ (v ++ after)).getLast? = some (after.getLast hne) := by
      rw [List.getLast?_append, List.getLast?_append, hmem]
      rfl
    have hwhite := hend _ hlast
    rw [isWhite_of_isSpacing (hspacing _ (List.getLast_mem hne))] at hwhite
    exact absurd hwhite (by decide)
  rw [hnil] at hends
  exact ⟨w, mid, rfl, hw, hends⟩

end Reader

/-- How a whole part ends that the grammar can read: it holds nothing that counts, or a placeholder
stands at its end and nothing that counts before it. -/
inductive Ends (body : List Char) : Operand → Prop
  | literal (l : Literal) (h : Quiet body) : Ends body (.literal l)
  | placeholder (p : Placeholder) (w : List Char) (h : body = w ++ p.written) (hw : Quiet w)
      (hp : p.Readable) : Ends body (.placeholder p)

theorem Ends.of_operand {w mid : List Char} {o : Operand} (hw : Quiet w)
    (h : Reader.operand mid = .ok (o, [])) : Ends (w ++ mid) o := by
  rcases Reader.operand_ok h with ⟨p, rfl, rfl, hp⟩ | ⟨l, v, rfl, rfl, hv⟩
  · rw [List.append_nil]
    exact .placeholder p w rfl hw hp
  · rw [List.append_nil]
    exact .literal l (hw.append hv)

theorem ends_assignment {body : List Char} {a : Assignment}
    (h : Reader.whole? .assignment body = some a) : Ends body a.value := by
  obtain ⟨w, mid, rfl, hw, hvalue⟩ := Reader.assignment_ok (Reader.whole?_eq_some_iff.1 h)
  exact .of_operand hw hvalue

theorem ends_condition {body : List Char} {c : Condition}
    (hend : ∀ d ∈ body.getLast?, isWhite d = false) (h : Reader.whole? .condition body = some c) :
    (∃ field negated, c = .isNull field negated ∧ Quiet body) ∨
      ∃ field op o, c = .compare field op o ∧ Ends body o := by
  obtain ⟨w, mid, rfl, hw, hends⟩ := Reader.condition_ok hend (Reader.whole?_eq_some_iff.1 h)
  rcases hends with ⟨field, negated, v, rfl, rfl, hv⟩ | ⟨field, op, o, v, m, rfl, rfl, hv, ho⟩
  · left
    rw [List.append_nil]
    exact ⟨field, negated, rfl, hw.append hv⟩
  · right
    rw [← List.append_assoc]
    exact ⟨field, op, o, rfl, .of_operand (hw.append hv) ho⟩

end RecordShelf.Sql

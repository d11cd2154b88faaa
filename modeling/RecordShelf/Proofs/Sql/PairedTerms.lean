import RecordShelf.Proofs.Sql.KeptLetters
import RecordShelf.Proofs.Sql.TableNames

/-!
# Terms side by side

Assignments and conditions are read the same from two texts that differ in letter case only where it
does not count. Their operand stands behind a blank, a sign or the word LIKE, so that a name in it
is one for the scan too, and what a string holds stands in quotes for both.
-/

namespace RecordShelf.Sql
open Text

/-! ## Parts behind a text -/

/-- The texts are the same behind some text, of which and of the first of them something holds. -/
def SameBehind (H : List Char → List Char → Prop) (cs ds : List Char) : Prop :=
  ∃ before, H before cs ∧ SameFrom .start before cs ds

def Anywhere (_ _ : List Char) : Prop := True

/-- Neither a word nor a colon stands at the end. -/
structure Clear (before : List Char) : Prop where
  word : EndsWord before
  colon : before.head? ≠ some ':'

section
variable {H H' : List Char → List Char → Prop} {before cs ds : List Char} {c : Char}

theorem Clear.nil : Clear [] := ⟨ends_nil, by simp⟩

theorem Clear.cons (hword : isAsciiWord c = false) (hcolon : c ≠ ':') (before : List Char) :
    Clear (c :: before) :=
  ⟨ends_cons hword before, by simpa using hcolon⟩

theorem Clear.fresh (h : Clear before) (cs : List Char) : Fresh before cs :=
  ⟨fun _ => startsName_of_endsWord h.word h.colon, .inr h.word⟩

namespace SameBehind

theorem mono (h : SameBehind H cs ds) (hH : ∀ before cs, H before cs → H' before cs) :
    SameBehind H' cs ds := by
  obtain ⟨before, hbefore, hsame⟩ := h
  exact ⟨before, hH before cs hbefore, hsame⟩

theorem anywhere (h : SameBehind H cs ds) : SameBehind Anywhere cs ds := h.mono fun _ _ _ => trivial

theorem alike (h : SameBehind H cs ds) : Alike cs ds := by
  obtain ⟨_, -, hsame⟩ := h
  exact hsame.alike

theorem sameText (h : SameBehind Fresh cs ds) : SameText cs ds := by
  obtain ⟨_, hfresh, hsame⟩ := h
  exact hsame.rebase hfresh

end SameBehind

theorem SameFrom.fresh (h : SameText cs ds) : SameBehind Fresh cs ds := ⟨[], Clear.nil.fresh cs, h⟩

theorem SameFrom.apart (h : SameText cs ds) : SameBehind Apart cs ds :=
  h.fresh.mono fun _ _ => Fresh.apart

theorem SameFrom.anywhere (h : SameText cs ds) : SameBehind Anywhere cs ds := h.fresh.anywhere

end

/-! ## Readers behind a text -/

namespace Reader
variable {α : Type} {H H' : List Char → List Char → Prop} {reader : Reader α}
  {before cs ds w rest : List Char}

/-- What a reader leaves stands behind what it has taken. -/
theorem reads_behind (h : Reads Alike Alike reader) (hquiet : TakesQuiet reader)
    (hends : ∀ before w a rest, H before (w ++ rest) → reader (w ++ rest) = .ok (a, rest) →
      H' (w.reverse ++ before) rest) :
    Reads (SameBehind H) (SameBehind H') reader := by
  rintro cs ds ⟨before, hbefore, hsame⟩
  have hread := h cs ds hsame.alike
  generalize hcs : reader cs = x at hread
  generalize hds : reader ds = y at hread
  cases hread with
  | error place place' => exact .error place place'
  | @ok r r' hresult =>
    obtain ⟨a, rest⟩ := r
    obtain ⟨b, rest'⟩ := r'
    obtain ⟨hvalue, hleft⟩ : a = b ∧ Alike rest rest' := hresult
    obtain ⟨w, rfl, hw⟩ := hquiet _ _ _ hcs
    obtain ⟨w', rfl, -⟩ := hquiet _ _ _ hds
    have hlength : w.length = w'.length := by
      have hboth := hsame.alike.length
      rw [List.length_append, List.length_append, hleft.length] at hboth
      omega
    obtain ⟨-, hrest⟩ := (SameFrom.append_iff hlength).1 hsame
    rw [hw.run] at hrest
    exact .ok ⟨hvalue, w.reverse ++ before, hends before w a rest hbefore hcs, hrest⟩

/-- Where nothing goes on behind what a reader has taken, the rest stands by itself. -/
theorem reads_fresh (h : Reads Alike Alike reader) (hquiet : TakesQuiet reader)
    (hends : ∀ before w a rest, H before (w ++ rest) → reader (w ++ rest) = .ok (a, rest) →
      Fresh (w.reverse ++ before) rest) : Reads (SameBehind H) SameText reader :=
  (reads_behind h hquiet hends).post fun _ _ => SameBehind.sameText

theorem clear_reverse {c : Char} (hword : isAsciiWord c = false) (hcolon : c ≠ ':')
    (u before : List Char) : Clear ((u ++ [c]).reverse ++ before) := by
  rw [List.reverse_append]
  exact Clear.cons hword hcolon _

theorem clear_white (hne : w ≠ []) (hw : ∀ c ∈ w, isWhite c = true) (before : List Char) :
    Clear (w.reverse ++ before) := by
  have hwhite := hw _ (List.getLast_mem hne)
  rw [← List.dropLast_append_getLast hne]
  refine clear_reverse (isAsciiWord_of_isWhite hwhite) (fun hcolon => ?_) _ _
  rw [hcolon] at hwhite
  exact absurd hwhite (by decide)

/-- Behind white space it is as at the start of a text. -/
theorem reads_run_behind {p : Char → Bool} (hcase : Letterless p)
    (hp : ∀ c, p c = true → isWhite c = true) (hH : ∀ before cs, Clear before → H before cs) :
    Reads (SameBehind H) (SameBehind H) (run p) := by
  have hquiet : TakesQuiet (run p) := .run fun c hc => calm_of_isWhite (hp c hc)
  refine reads_behind (reads_run hcase) hquiet fun before w a rest hbefore h => ?_
  by_cases hne : w = []
  · rw [hne] at hbefore ⊢
    exact hbefore
  · obtain ⟨-, hrest⟩ := Prod.mk.inj (Except.ok.inj h)
    have hw : (w ++ rest).takeWhile p = w := by
      have hsplit : (w ++ rest).takeWhile p ++ (w ++ rest).dropWhile p = w ++ rest :=
        List.takeWhile_append_dropWhile
      rw [hrest] at hsplit
      exact List.append_cancel_right hsplit
    exact hH _ _ (clear_white hne (fun c hc => hp c (List.mem_takeWhile_imp (hw ▸ hc))) before)

theorem reads_blanks1_behind : Reads (SameBehind Anywhere) SameText blanks1 := by
  refine reads_fresh reads_blanks1 TakesQuiet.blanks1 fun before w a rest _ h => ?_
  obtain ⟨hne, hspacing, hsplit, -⟩ := run1_ok_iff.1 h
  obtain rfl := List.append_cancel_right hsplit
  exact (clear_white hne (fun c hc => isWhite_of_isSpacing (hspacing c hc)) before).fresh rest

theorem reads_blanks_same : Reads SameText SameText blanks :=
  ((reads_run_behind letterless_isSpacing (fun _ => isWhite_of_isSpacing)
    fun _ cs h => Clear.fresh h cs).pre fun _ _ => SameFrom.fresh).post
      fun _ _ => SameBehind.sameText

theorem reads_blanks_anywhere :
    Reads (SameBehind Anywhere) (SameBehind Anywhere) blanks :=
  reads_run_behind letterless_isSpacing (fun _ => isWhite_of_isSpacing) fun _ _ _ => trivial

/-- Behind an operator it is as at the start of a text. -/
theorem reads_operator {word : List Char} (hne : word ≠ [])
    (hsigns : word.all ['<', '>', '=', '!'].contains = true) :
    Reads (SameBehind Anywhere) SameText (text word) := by
  rw [List.all_eq_true] at hsigns
  have hcalm : ∀ c ∈ word, Calm c := fun c hc => calm_of_class (by decide) (hsigns c hc)
  have hsign : ∀ c ∈ ['<', '>', '=', '!'],
      Letterless (· == c) ∧ isAsciiWord c = false ∧ c ≠ ':' :=
    List.forall_iff_forall_mem.1 (by decide)
  have hword : ∀ c ∈ word, Letterless (· == c) ∧ isAsciiWord c = false ∧ c ≠ ':' :=
    fun c hc => hsign c (List.contains_iff_mem.1 (hsigns c hc))
  refine reads_fresh (reads_text fun c hc => (hword c hc).1) (TakesQuiet.text hcalm)
    fun before w a rest _ h => ?_
  have hsplit : w ++ rest = word ++ rest := by
    rw [text] at h
    split at h
    · rename_i hdrop
      obtain ⟨-, rfl⟩ := Prod.mk.inj (Except.ok.inj h)
      exact dropText?_eq hdrop
    · exact absurd h (by simp)
  obtain rfl := List.append_cancel_right hsplit
  obtain ⟨-, hlast, hcolon⟩ := hword _ (List.getLast_mem hne)
  rw [← List.dropLast_append_getLast hne]
  exact (clear_reverse hlast hcolon _ before).fresh rest

/-- Behind a character that is no letter the texts go on as they do behind it. -/
theorem reads_char_from {st : ScanState} {c : Char} (hcase : Letterless (· == c)) :
    Reads (SameFrom st before) (SameFrom (st.step c).2 (c :: before)) (char c) := by
  intro cs ds h
  cases cs with
  | nil =>
    rw [h.alike.nil_left]
    exact .error _ _
  | cons e cs =>
    obtain ⟨d, ds, rfl, hd, -⟩ := h.alike.cons_left
    have hmatch : e = c ↔ d = c := eq_iff_of_letterless hcase hd
    by_cases he : e = c
    · obtain rfl := hmatch.1 he
      subst he
      have hread : ∀ es : List Char, char e (e :: es) = .ok (e, es) := fun es => by
        simp [char, satisfy]
      rw [hread, hread]
      exact .ok ⟨rfl, h.2⟩
    · rw [char, satisfy, satisfy, if_neg (by simpa using he),
        if_neg (by simpa using fun heq => he (hmatch.2 heq))]
      exact .error _ _

/-- Behind a sign that is no colon and opens no quote it is as at the start of a text. -/
theorem reads_sign {c : Char} (hcase : Letterless (· == c)) (hword : isAsciiWord c = false)
    (hcolon : c ≠ ':') (hstep : (ScanState.start.step c).2.SameQuote .start) :
    Reads (SameBehind Anywhere) SameText (char c) := by
  rintro cs ds ⟨before, -, h⟩
  refine (reads_char_from hcase).post (fun es _ hrest => ?_) cs ds h
  exact (hrest.of_sameQuote hstep).rebase ((Clear.cons hword hcolon before).fresh es)

theorem dropWord?_letters {word : List Char} (h : dropWord? word cs = some rest) :
    ∃ w, cs = w ++ rest ∧ w.map Char.toLower = word := by
  induction word generalizing cs with
  | nil => exact ⟨[], Option.some.inj h, rfl⟩
  | cons letter word ih =>
    cases cs with
    | nil => exact absurd h (by simp [dropWord?])
    | cons c cs =>
      rw [dropWord?] at h
      split_ifs at h with hc
      obtain ⟨w, rfl, hw⟩ := ih h
      exact ⟨c :: w, rfl, by rw [List.map_cons, hc, hw]⟩

/-- What a keyword takes is the word, and it does not run on. -/
theorem keyword_ok {word : String} {a : Unit} (h : keyword word cs = .ok (a, rest)) :
    (∃ w, cs = w ++ rest ∧ w.map Char.toLower = word.toList) ∧ EndsWord rest := by
  have hdrop : dropWord? word.toList cs = some rest ∧ ∀ c ∈ rest.head?, isWord c = false := by
    rw [keyword] at h
    split at h
    · exact absurd h (by simp)
    · rename_i hdrop
      obtain ⟨-, rfl⟩ := Prod.mk.inj (Except.ok.inj h)
      exact ⟨hdrop, fun c hc => absurd hc (by simp)⟩
    · rename_i hdrop
      split_ifs at h with hc
      obtain ⟨-, rfl⟩ := Prod.mk.inj (Except.ok.inj h)
      exact ⟨hdrop, forall_head?_cons (by simpa using hc) _⟩
  exact ⟨dropWord?_letters hdrop.1, endsWord_of_isWord hdrop.2⟩

theorem reads_keyword_behind {word : String} (hword : word.toList.all Char.isAlpha = true) :
    Reads (SameBehind Anywhere) (SameBehind Apart) (keyword word) :=
  reads_behind (reads_keyword word) (TakesQuiet.keyword hword)
    fun _ _ _ _ _ h => .inl (keyword_ok h).2

end Reader

/-- Behind a word that leads in placeholders it is as at the start of a text. -/
theorem fresh_leadIn {before w rest : List Char} (hword : w.map Char.toLower ∈ leadIns)
    (hletters : ∀ c ∈ w, isAsciiWord c = true) (hbefore : EndsWord before) (hrest : EndsWord rest) :
    Fresh (w.reverse ++ before) rest := by
  refine ⟨fun _ => ?_, .inl hrest⟩
  have hspan : (w.reverse ++ before).takeWhile isAsciiWord = w.reverse := by
    rw [List.takeWhile_append_of_pos fun c hc => hletters c (List.mem_reverse.1 hc),
      takeWhile_of_endsWord hbefore, List.append_nil]
  have hcons : ∃ c v, w.reverse = c :: v := by
    refine List.exists_cons_of_ne_nil fun hnil => ?_
    rw [List.reverse_eq_nil_iff.1 hnil] at hword
    exact absurd hword (by decide)
  obtain ⟨c, v, hv⟩ := hcons
  rw [startsName, hspan, hv]
  dsimp only
  rw [← hv, List.reverse_reverse, List.contains_iff_mem]
  exact hword

namespace Reader

theorem reads_leadIn {word : String} (hmem : word.toList ∈ leadIns) :
    Reads (SameBehind Apart) SameText (keyword word) := by
  have hall : ∀ word ∈ leadIns, word ≠ [] ∧ word.all Char.isAlpha = true := by decide
  obtain ⟨hne, hword⟩ := hall _ hmem
  refine reads_fresh (reads_keyword word) (TakesQuiet.keyword hword)
    fun before w a rest hbefore h => ?_
  obtain ⟨⟨v, hsplit, hv⟩, hrest⟩ := keyword_ok h
  obtain rfl := List.append_cancel_right hsplit
  have hletters : ∀ c ∈ w, isAsciiWord c = true := by
    intro c hc
    refine isAsciiWord_of_toLower (List.all_eq_true.1 hword _ ?_)
    rw [← hv]
    exact List.mem_map_of_mem hc
  refine fresh_leadIn (hv ▸ hmem) hletters (hbefore.resolve_left fun hends => ?_) hrest
  obtain ⟨c, u, rfl⟩ := List.exists_cons_of_ne_nil (l := w) (by rintro rfl; exact hne hv.symm)
  exact absurd ((hends c rfl).symm.trans (hletters c List.mem_cons_self)) (by decide)

theorem reads_identifier_behind :
    Reads (SameBehind Anywhere) (SameBehind Apart) identifier := by
  refine reads_behind reads_identifier takesQuiet_identifier fun before w a rest _ h => ?_
  obtain ⟨word, hname, -⟩ := identifier_ok_iff.1 h
  rcases hname.written with ⟨-, hrest⟩ | hticked
  · exact .inl (endsWord_of_isWord hrest)
  · right
    have hw : w = ('`' :: word) ++ ['`'] := by
      have hcons : w ++ rest = (('`' :: word) ++ ['`']) ++ rest := by
        simpa only [List.cons_append, List.append_assoc, List.nil_append] using hticked
      exact List.append_cancel_right hcons
    rw [hw]
    exact (clear_reverse (by decide) (by decide) _ _).word

theorem reads_name_anywhere :
    Reads (SameBehind Anywhere) (SameBehind Anywhere) identifier :=
  reads_identifier_behind.post fun _ _ => SameBehind.anywhere

/-! ## Operands -/

theorem letterless_quote {q : Char} (hq : q = '\'' ∨ q = '"') : Letterless (· == q) := by
  rcases hq with rfl | rfl <;> decide

/-- A character in a string is the same in both texts. -/
theorem sameFrom_quoted {st : ScanState} {q c : Char} (hst : st.quote = some q)
    (hq : q = '\'' ∨ q = '"') (h : SameFrom st before (c :: cs) ds) :
    ∃ es, ds = c :: es ∧ SameFrom (st.step c).2 (c :: before) cs es := by
  cases ds with
  | nil => exact h.elim
  | cons d ds =>
    obtain ⟨hc, hcs⟩ := h
    have hkeeps : st.keepsCase before = true := by
      rw [ScanState.keepsCase, hst]
      rcases hq with rfl | rfl <;> rfl
    rw [if_pos hkeeps] at hc
    exact ⟨ds, by rw [hc], hcs⟩

/-- After a backslash the next character is the same too, and the quote goes on behind it. -/
theorem sameFrom_escaped {q c : Char} (hq : q = '\'' ∨ q = '"')
    (h : SameFrom (.within q) before ('\\' :: c :: cs) ds) :
    ∃ es, ds = '\\' :: c :: es ∧ SameFrom (.within q) (c :: '\\' :: before) cs es := by
  obtain ⟨es, rfl, hback⟩ := sameFrom_quoted rfl hq h
  rw [ScanState.within, ScanState.step_backslash (ne_backtick hq)] at hback
  obtain ⟨fs, rfl, htail⟩ := sameFrom_quoted rfl hq hback
  exact ⟨fs, rfl, htail⟩

/-- A doubled quote closes the quote and opens it again, so its second half is met in code. There it
is the same because it is no letter. -/
theorem sameFrom_doubled {q : Char} (hq : q = '\'' ∨ q = '"')
    (h : SameFrom (.within q) before (q :: q :: cs) ds) :
    ∃ es, ds = q :: q :: es ∧ SameFrom (.within q) (q :: q :: before) cs es := by
  have hquote : q = '\'' ∨ q = '"' ∨ q = '`' := hq.imp_right Or.inl
  obtain ⟨es, rfl, hfirst⟩ := sameFrom_quoted rfl hq h
  rw [ScanState.within, ScanState.step_close hquote] at hfirst
  obtain ⟨d, fs, rfl, hd, -⟩ := hfirst.alike.cons_left
  obtain rfl : d = q := (eq_iff_of_letterless (letterless_quote hq) hd).1 rfl
  have htail := hfirst.2
  rw [ScanState.step_open hquote] at htail
  exact ⟨fs, rfl, htail⟩

theorem sameFrom_inside {q c : Char} (hq : q = '\'' ∨ q = '"') (hc : c ≠ q) (hback : c ≠ '\\')
    (h : SameFrom (.within q) before (c :: cs) ds) :
    ∃ es, ds = c :: es ∧ SameFrom (.within q) (c :: before) cs es := by
  obtain ⟨es, rfl, htail⟩ := sameFrom_quoted rfl hq h
  rw [ScanState.within, ScanState.step_inside hc hback] at htail
  exact ⟨es, rfl, htail⟩

/-- The reader takes the same characters from both texts, and what it leaves is alike. -/
theorem stringChars_same {q : Char} (hq : q = '\'' ∨ q = '"')
    (h : SameFrom (.within q) before cs ds) :
    (stringChars q cs).1 = (stringChars q ds).1 ∧
      Alike (stringChars q cs).2 (stringChars q ds).2 := by
  -- Along the recursion of the reader: in each case the scan is inside the quote again behind what
  -- the reader has taken, which is what the next call asks for.
  fun_induction stringChars q cs generalizing before ds with
  | case1 =>
    rw [h.alike.nil_left]
    exact ⟨rfl, Alike.refl []⟩
  | case2 c tail chars after hread ih =>
    obtain ⟨es, rfl, htail⟩ := sameFrom_escaped hq h
    obtain ⟨hchars, hafter⟩ := ih htail
    rw [hread] at hchars hafter
    simp only [stringChars]
    exact ⟨congrArg _ hchars, hafter⟩
  | case3 tail chars after hread hnot ih =>
    obtain ⟨es, rfl, htail⟩ := sameFrom_doubled hq h
    obtain ⟨hchars, hafter⟩ := ih htail
    rw [hread] at hchars hafter
    rw [stringChars, if_pos rfl, if_pos rfl]
    · exact ⟨congrArg (q :: ·) hchars, hafter⟩
    · exact hnot
  | case4 d tail hne hnot =>
    obtain ⟨es, rfl, hfirst⟩ := sameFrom_quoted rfl hq h
    obtain ⟨e, fs, rfl, he, -⟩ := hfirst.alike.cons_left
    have hother : e ≠ q := fun heq => hne ((eq_iff_of_letterless (letterless_quote hq) he).2 heq)
    rw [stringChars, if_pos rfl, if_neg hother]
    · exact ⟨rfl, h.alike⟩
    · exact hnot
  | case5 c d tail hnot hc chars after hread ih =>
    obtain ⟨es, rfl, htail⟩ := sameFrom_inside hq hc hnot h
    obtain ⟨hchars, hafter⟩ := ih htail
    rw [hread] at hchars hafter
    obtain ⟨e, fs, rfl, -, -⟩ := htail.alike.cons_left
    rw [stringChars, if_neg hc]
    · exact ⟨congrArg (c :: ·) hchars, hafter⟩
    · exact hnot
  | case6 c hc =>
    obtain ⟨es, rfl, hfirst⟩ := sameFrom_quoted rfl hq h
    rw [hfirst.alike.nil_left, stringChars, if_pos hc]
    exact ⟨rfl, Alike.refl _⟩
  | case7 c hc =>
    obtain ⟨es, rfl, hfirst⟩ := sameFrom_quoted rfl hq h
    rw [hfirst.alike.nil_left, stringChars, if_neg hc]
    exact ⟨rfl, Alike.refl _⟩

/-- What stands in quotes is read as it is written. -/
theorem reads_quotedBy {q : Char} (hq : q = '\'' ∨ q = '"') :
    Reads (SameBehind Anywhere) Alike (quotedBy q) := by
  have hcase : Letterless (· == q) := letterless_quote hq
  have hwithin : (ScanState.start.step q).2 = .within q :=
    congrArg Prod.snd (ScanState.step_open (hq.imp_right Or.inl) 0)
  rintro cs ds ⟨before, -, h⟩
  have hopening : Reads (SameFrom .start before) (SameFrom (.within q) (q :: before)) (char q) :=
    hwithin ▸ reads_char_from hcase
  have hchars : Reads (SameFrom (.within q) (q :: before)) Alike
      (fun es => .ok (stringChars q es) : Reader (List Char)) :=
    fun _ _ hinside => .ok (stringChars_same hq hinside)
  have hclosing : Reads Alike Alike (char q) := reads_char hcase
  exact hopening.bind (fun _ => hchars.bind fun _ => hclosing.bind fun _ => .pure _) cs ds h

theorem reads_string : Reads (SameBehind Anywhere) Alike string :=
  (reads_quotedBy (.inl rfl)).either (reads_quotedBy (.inr rfl))

/-- The name of a placeholder is read as it is written. -/
theorem reads_placeholder : Reads SameText Alike placeholder := by
  have hquestion : Reads SameText Alike (char '?') :=
    Reads.pre (reads_char (by decide)) fun _ _ => SameFrom.alike
  have hcolon : Reads SameText (SameFrom .start [':']) (char ':') :=
    reads_char_from (c := ':') (by decide)
  -- behind the colon the texts are the same as long as the name goes on
  have hname : Reads (SameFrom .start [':']) Alike (run1 isWord) := by
    intro cs ds h
    rw [run1, run1, h.takeWhile_isWord rfl rfl]
    split_ifs
    · exact .error _ _
    · exact .ok ⟨rfl, h.alike.dropWhile folds_isWord⟩
  exact Reads.either (hquestion.bind fun _ => .pure _)
    (hcolon.bind fun _ => hname.bind fun _ => .pure _)

theorem reads_literal : Reads (SameBehind Anywhere) Alike literal := by
  have hword : ∀ (word : String) (l : Literal),
      Reads (SameBehind Anywhere) Alike (do keyword word; return l : Reader Literal) :=
    fun word l => (reads_word word l).pre fun _ _ => SameBehind.alike
  have hfloat : Reads (SameBehind Anywhere) Alike (Literal.float <$> float) :=
    (reads_float.map _).pre fun _ _ => SameBehind.alike
  have hint : Reads (SameBehind Anywhere) Alike (Literal.int <$> int) :=
    (reads_int.map _).pre fun _ _ => SameBehind.alike
  exact (hword "null" _).either <| (hword "true" _).either <| (hword "false" _).either <|
    hfloat.either <| hint.either (reads_string.map _)

theorem reads_operand : Reads SameText Alike operand :=
  (reads_placeholder.map _).either ((reads_literal.map _).pre fun _ _ => SameFrom.anywhere)

/-! ## Assignments and conditions -/

theorem reads_assignment : Reads (SameBehind Anywhere) Alike assignment :=
  reads_name_anywhere.bind fun _ => reads_blanks_anywhere.bind fun _ =>
    (reads_sign (by decide) (by decide) (by decide) ⟨rfl, rfl⟩).bind fun _ =>
      reads_blanks_same.bind fun _ => reads_operand.bind fun _ => .pure _

theorem reads_compareOp_behind :
    Reads (SameBehind Anywhere) SameText compareOp := by
  have hop : ∀ (word : List Char) (op : CompareOp), word ≠ [] →
      word.all ['<', '>', '=', '!'].contains = true →
        Reads (SameBehind Anywhere) SameText (do text word; return op : Reader CompareOp) :=
    fun _ _ hne hsigns => (reads_operator hne hsigns).bind fun _ => .pure _
  exact (hop ['<', '='] _ (by decide) (by decide)).either <|
    (hop ['>', '='] _ (by decide) (by decide)).either <|
    (((reads_operator (by decide) (by decide)).either
      (reads_operator (by decide) (by decide))).bind fun _ => .pure _).either <|
    (hop ['='] _ (by decide) (by decide)).either <|
    (hop ['<'] _ (by decide) (by decide)).either (hop ['>'] _ (by decide) (by decide))

theorem reads_negation_same : Reads SameText SameText negation := by
  have hword : Reads SameText (SameBehind Anywhere) (keyword "not") :=
    ((reads_keyword_behind (by decide)).pre fun _ _ => SameFrom.anywhere).post
      fun _ _ => SameBehind.anywhere
  exact ((hword.bind fun _ => reads_blanks1_behind.bind fun _ => .pure _).optional
    fun _ _ => id).bind fun _ => .pure _

theorem reads_like : Reads (SameBehind Anywhere) Alike like :=
  reads_name_anywhere.bind fun _ => reads_blanks1_behind.bind fun _ =>
    reads_negation_same.bind fun _ =>
      ((reads_leadIn (by decide)).pre fun _ _ => SameFrom.apart).bind fun _ =>
        reads_blanks_same.bind fun _ => reads_operand.bind fun _ => .pure _

theorem reads_comparison : Reads (SameBehind Anywhere) Alike comparison :=
  reads_name_anywhere.bind fun _ => reads_blanks_anywhere.bind fun _ =>
    reads_compareOp_behind.bind fun _ => reads_blanks_same.bind fun _ =>
      reads_operand.bind fun _ => .pure _

theorem reads_condition : Reads (SameBehind Anywhere) Alike condition :=
  reads_blanks_anywhere.bind fun _ =>
    ((reads_isNull.pre fun _ _ => SameBehind.alike).either
      (reads_like.either reads_comparison)).bind fun _ => reads_blanks.bind fun _ => .pure _

end Reader

end RecordShelf.Sql

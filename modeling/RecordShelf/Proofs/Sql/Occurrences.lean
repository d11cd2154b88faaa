import Mathlib.Data.List.Basic
import RecordShelf.Proofs.Sql.Lexemes
import RecordShelf.Sql.Parse

/-!
# Where keywords occur

A keyword occurs where its words stand in top-level code, in any case and with blanks between them,
and neither its first word nor its last one is part of a longer word. A search finds the first
occurrence, and it finds one wherever there is any.
-/

namespace RecordShelf.Sql
open Text

/-! ## Top-level places -/

namespace ScanState

/-- Only in a quote can a character be escaped. -/
def Sane (st : ScanState) : Prop := st.quote = none → st.escaped = false

theorem sane_start : start.Sane := fun _ => rfl

theorem Sane.step {st : ScanState} (h : st.Sane) (c : Char) : (st.step c).2.Sane := by
  intro hnone
  unfold ScanState.step at hnone ⊢
  cases hquote : st.quote with
  | none =>
    simp only [hquote] at hnone ⊢
    split_ifs at hnone ⊢ <;> simp_all [Sane]
  | some q =>
    simp only [hquote] at hnone ⊢
    split_ifs at hnone ⊢ <;> simp_all

theorem Sane.run {st : ScanState} (h : st.Sane) (cs : List Char) : (st.run cs).Sane := by
  induction cs generalizing st with
  | nil => exact h
  | cons c cs ih => exact ih (h.step c)

/-- A scan is in no quote, or in one of the three. -/
def Known (st : ScanState) : Prop := ∀ q ∈ st.quote, q = '\'' ∨ q = '"' ∨ q = '`'

theorem known_start : start.Known := fun _ hq => absurd hq (by simp [start])

theorem Known.step {st : ScanState} (h : st.Known) (c : Char) : (st.step c).2.Known := by
  unfold ScanState.step Known
  cases hquote : st.quote with
  | none =>
    dsimp only
    split_ifs with hopen
    · exact fun q hq => Option.some.inj hq ▸ hopen
    all_goals simp [hquote]
  | some r =>
    have hr : r = '\'' ∨ r = '"' ∨ r = '`' := h r hquote
    dsimp only
    split_ifs <;> simp [hquote, hr]

theorem Known.run {st : ScanState} (h : st.Known) (cs : List Char) : (st.run cs).Known := by
  induction cs generalizing st with
  | nil => exact h
  | cons c cs ih => exact ih (h.step c)

theorem eq_start_of_top {st : ScanState} {c : Char} (hst : st.Sane) (hc : Calm c)
    (h : (st.step c).1 = .code 0) : st = .start := by
  obtain ⟨quote, escaped, depth⟩ := st
  cases quote with
  | some q => exact absurd h (by simp [step])
  | none =>
    rw [step_of_calm rfl hc] at h
    obtain rfl : escaped = false := hst rfl
    obtain rfl : depth = 0 := Mark.code.inj h
    rfl

end ScanState

/-! ## Keywords -/

/-- At least one word, and all words of letters. -/
structure Keyword (words : List (List Char)) : Prop where
  nonempty : words ≠ []
  word : ∀ word ∈ words, word ≠ [] ∧ word.all Char.isAlpha = true

theorem Keyword.letters {words : List (List Char)} (h : Keyword words) :
    words.all (·.all Char.isAlpha) = true :=
  List.all_eq_true.2 fun word hword => (h.word word hword).2

theorem Keyword.exists_cons {words : List (List Char)} (h : Keyword words) :
    ∃ w word more, words = (w :: word) :: more ∧ w.isAlpha = true := by
  obtain ⟨word, more, rfl⟩ := List.exists_cons_of_ne_nil h.nonempty
  obtain ⟨hne, hletters⟩ := h.word word List.mem_cons_self
  obtain ⟨w, word, rfl⟩ := List.exists_cons_of_ne_nil hne
  exact ⟨w, word, more, rfl, List.all_eq_true.1 hletters w List.mem_cons_self⟩

theorem Keyword.tail {word : List Char} {words : List (List Char)} (h : Keyword (word :: words))
    (hne : words ≠ []) : Keyword words :=
  ⟨hne, fun other hother => h.word other (List.mem_cons_of_mem word hother)⟩

/-- What a statement is searched for. -/
def searched : List (List (List Char)) :=
  [andWord, ["from".toList], ["set".toList], ["values".toList], duplicateWords] ++
    ClauseName.all.map ClauseName.words

theorem keyword_searched : ∀ words ∈ searched, Keyword words := by
  have hwords : ∀ words ∈ searched, words ≠ [] ∧
      ∀ word ∈ words, word ≠ [] ∧ word.all Char.isAlpha = true := by decide
  exact fun words hmem => ⟨(hwords words hmem).1, (hwords words hmem).2⟩

theorem keyword_and : Keyword andWord := keyword_searched andWord (by decide)

theorem keyword_clause (name : ClauseName) : Keyword name.words :=
  keyword_searched name.words (by cases name <;> decide)

/-- The words of a keyword in any case, with blanks between them. -/
inductive Spells : List (List Char) → List Char → Prop
  | last {word w : List Char} (letters : w.map Char.toLower = word) : Spells [word] w
  | next {word w gap rest : List Char} {words : List (List Char)}
      (letters : w.map Char.toLower = word) (nonempty : gap ≠ [])
      (blank : ∀ c ∈ gap, isAsciiBlank c = true) (more : Spells words rest) :
      Spells (word :: words) (w ++ (gap ++ rest))

/-- Between two parts of a text stands a keyword, in top-level code, that does not run on to either
side. -/
structure Occurs (words : List (List Char)) (u w v : List Char) : Prop where
  top : ScanState.run .start u = .start
  spelled : Spells words w
  before : ∀ d ∈ u.getLast?, isAsciiWord d = false
  behind : EndsWord v

/-- A keyword occurs in a text from one position up to another. -/
def OccursAt (words : List (List Char)) (cs : List Char) (start stop : ℕ) : Prop :=
  ∃ u w v, cs = u ++ (w ++ v) ∧ start = u.length ∧ stop = (u ++ w).length ∧ Occurs words u w v

section
variable {st : ScanState} {word u w v cs gap : List Char} {words : List (List Char)}
  {rest : List Marked} {position start stop : ℕ} {afterWord : Bool}

/-! ## Spelled keywords -/

theorem isAsciiWord_of_letters (hword : word.all Char.isAlpha = true)
    (hw : w.map Char.toLower = word) : ∀ c ∈ w, isAsciiWord c = true := by
  intro c hc
  refine isAsciiWord_of_toLower (List.all_eq_true.1 hword _ ?_)
  rw [← hw]
  exact List.mem_map_of_mem hc

theorem Spells.ne_nil (hwords : Keyword words) (h : Spells words w) : w ≠ [] := by
  have hword : ∀ {word w : List Char}, word ≠ [] → w.map Char.toLower = word → w ≠ [] := by
    rintro _ _ hne rfl rfl
    exact hne rfl
  cases h with
  | last hw => exact hword (hwords.word _ List.mem_cons_self).1 hw
  | next hw _ _ _ =>
    exact List.append_ne_nil_of_left_ne_nil (hword (hwords.word _ List.mem_cons_self).1 hw) _

/-- A keyword starts with the letters of its first word. -/
theorem Spells.head (hwords : Keyword words) (h : Spells words w) :
    ∀ c ∈ w.head?, isAsciiWord c = true := by
  have hword : ∀ {word w rest : List Char}, word ≠ [] ∧ word.all Char.isAlpha = true →
      w.map Char.toLower = word → ∀ c ∈ (w ++ rest).head?, isAsciiWord c = true := by
    rintro word w rest ⟨hne, hletters⟩ hw c hc
    cases w with
    | nil => exact absurd hw.symm hne
    | cons d w =>
      obtain rfl := Option.some.inj hc
      exact isAsciiWord_of_letters hletters hw d List.mem_cons_self
  cases h with
  | @last word w hw =>
    have hfirst : ∀ c ∈ (w ++ []).head?, isAsciiWord c = true :=
      hword (hwords.word _ List.mem_cons_self) hw
    rwa [List.append_nil] at hfirst
  | next hw _ _ _ => exact hword (hwords.word _ List.mem_cons_self) hw

theorem Spells.words_ne_nil (h : Spells words w) : words ≠ [] := by
  cases h <;> exact List.cons_ne_nil _ _

theorem Spells.single (h : Spells [word] w) : w.map Char.toLower = word := by
  cases h with
  | last letters => exact letters
  | next _ _ _ more => exact absurd rfl more.words_ne_nil

theorem calm_of_isAsciiBlank {c : Char} (hc : isAsciiBlank c = true) : Calm c :=
  calm_of_class (by decide) hc

theorem Spells.calm (hwords : Keyword words) (h : Spells words w) : ∀ c ∈ w, Calm c := by
  have hword : ∀ {word w : List Char}, word.all Char.isAlpha = true → w.map Char.toLower = word →
      ∀ c ∈ w, Calm c := fun hletters hw c hc =>
    calm_of_isWord (isWord_of_isAsciiWord (isAsciiWord_of_letters hletters hw c hc))
  induction h with
  | last hw => exact hword (hwords.word _ List.mem_cons_self).2 hw
  | next hw _ hblank hmore ih =>
    intro c hc
    rcases List.mem_append.1 hc with hc | hc
    · exact hword (hwords.word _ List.mem_cons_self).2 hw c hc
    · rcases List.mem_append.1 hc with hc | hc
      · exact calm_of_isAsciiBlank (hblank c hc)
      · exact ih (hwords.tail hmore.words_ne_nil) c hc

theorem mark_calm (hw : ∀ c ∈ w, Calm c) (v : List Char) :
    mark (w ++ v) = w.map (·, Mark.code 0) ++ mark v := by
  induction w with
  | nil => rfl
  | cons c w ih =>
    obtain ⟨hc, hw⟩ := List.forall_mem_cons.1 hw
    have hstep : ScanState.start.step c = (.code 0, .start) := ScanState.step_of_calm rfl hc
    rw [List.cons_append, mark, markFrom, hstep]
    exact congrArg _ (ih hw)

/-! ## Matching -/

theorem split_of_matchWord? (h : matchWord? word (markFrom st cs) = some rest) :
    ∃ w v, cs = w ++ v ∧ rest = markFrom (st.run w) v ∧ w.map Char.toLower = word := by
  induction word generalizing st cs with
  | nil =>
    obtain rfl := Option.some.inj h
    exact ⟨[], cs, rfl, rfl, rfl⟩
  | cons letter word ih =>
    cases cs with
    | nil => exact absurd h (by simp [markFrom, matchWord?])
    | cons c cs =>
      rw [markFrom, matchWord?] at h
      split_ifs at h with hc
      obtain ⟨w, v, rfl, rfl, hw⟩ := ih h
      exact ⟨c :: w, v, rfl, rfl, by rw [List.map_cons, hw, hc.1]⟩

theorem split_dropWhile_blank (st : ScanState) (cs : List Char) :
    ∃ gap v, cs = gap ++ v ∧ (∀ c ∈ gap, isAsciiBlank c = true) ∧
      (markFrom st cs).dropWhile (fun m => isAsciiBlank m.1) = markFrom (st.run gap) v := by
  induction cs generalizing st with
  | nil => exact ⟨[], [], rfl, fun c hc => absurd hc List.not_mem_nil, rfl⟩
  | cons c cs ih =>
    by_cases hc : isAsciiBlank c = true
    · obtain ⟨gap, v, rfl, hgap, hrest⟩ := ih (st.step c).2
      refine ⟨c :: gap, v, rfl, List.forall_mem_cons.2 ⟨hc, hgap⟩, ?_⟩
      rw [markFrom, List.dropWhile_cons_of_pos (p := fun m : Marked => isAsciiBlank m.1) hc, hrest]
      rfl
    · refine ⟨[], c :: cs, rfl, fun c hc => absurd hc List.not_mem_nil, ?_⟩
      rw [markFrom, List.dropWhile_cons_of_neg (p := fun m : Marked => isAsciiBlank m.1) hc]
      rfl

theorem split_of_matchGap? (h : matchGap? (markFrom st cs) = some rest) :
    ∃ gap v, cs = gap ++ v ∧ gap ≠ [] ∧ (∀ c ∈ gap, isAsciiBlank c = true) ∧
      rest = markFrom (st.run gap) v := by
  cases cs with
  | nil => exact absurd h (by simp [markFrom, matchGap?])
  | cons c cs =>
    rw [markFrom, matchGap?] at h
    split_ifs at h with hc
    obtain rfl := Option.some.inj h
    obtain ⟨gap, v, rfl, hgap, hrest⟩ := split_dropWhile_blank (st.step c).2 cs
    exact ⟨c :: gap, v, rfl, List.cons_ne_nil c gap, List.forall_mem_cons.2 ⟨hc, hgap⟩, hrest⟩

theorem startsWord_eq_false_iff : startsWord (markFrom st v) = false ↔ EndsWord v := by
  cases v with
  | nil => exact iff_of_true rfl ends_nil
  | cons c v => simp [markFrom, startsWord, EndsWord]

/-- What is matched is spelled out at the front of the text. -/
theorem spells_of_matchWords? (h : matchWords? words (markFrom st cs) = some rest) :
    ∃ w v, cs = w ++ v ∧ rest = markFrom (st.run w) v ∧ Spells words w ∧ EndsWord v := by
  induction words generalizing st cs with
  | nil => exact absurd h (by simp [matchWords?])
  | cons word words ih =>
    cases words with
    | nil =>
      rw [matchWords?] at h
      obtain ⟨after, hafter, hend⟩ := Option.bind_eq_some_iff.1 h
      obtain ⟨w, v, rfl, rfl, hw⟩ := split_of_matchWord? hafter
      split_ifs at hend with hstarts
      obtain rfl := Option.some.inj hend
      exact ⟨w, v, rfl, rfl, .last hw, startsWord_eq_false_iff.1 (Bool.not_eq_true _ ▸ hstarts)⟩
    | cons next words =>
      rw [matchWords?] at h
      · obtain ⟨after, hafter, h⟩ := Option.bind_eq_some_iff.1 h
        obtain ⟨w, behind, rfl, rfl, hw⟩ := split_of_matchWord? hafter
        obtain ⟨after, hafter, h⟩ := Option.bind_eq_some_iff.1 h
        obtain ⟨gap, behind, rfl, hne, hblank, rfl⟩ := split_of_matchGap? hafter
        obtain ⟨w', v, rfl, rfl, hmore, hends⟩ := ih h
        refine ⟨w ++ (gap ++ w'), v, by simp only [List.append_assoc], ?_, .next hw hne hblank hmore,
          hends⟩
        rw [ScanState.run_append, ScanState.run_append]
      · simp

theorem matchWord?_start (hw : (w.map Char.toLower).all Char.isAlpha = true) (v : List Char) :
    matchWord? (w.map Char.toLower) (mark (w ++ v)) = some (mark v) := by
  induction w with
  | nil => rfl
  | cons c w ih =>
    obtain ⟨hc, hw⟩ := Bool.and_eq_true_iff.1 (List.all_cons.symm.trans hw)
    have hstep : ScanState.start.step c = (.code 0, .start) :=
      ScanState.step_of_calm rfl (calm_of_toLower hc rfl)
    rw [mark, List.cons_append, markFrom, hstep, List.map_cons, matchWord?, if_pos ⟨rfl, rfl⟩]
    exact ih hw

theorem matchGap?_start (hne : gap ≠ []) (hblank : ∀ c ∈ gap, isAsciiBlank c = true)
    (hv : ∀ c ∈ v.head?, isAsciiBlank c = false) : matchGap? (mark (gap ++ v)) = some (mark v) := by
  have hcalm : ∀ c ∈ gap, Calm c := fun c hc => calm_of_isAsciiBlank (hblank c hc)
  obtain ⟨c, gap, rfl⟩ := List.exists_cons_of_ne_nil hne
  obtain ⟨hc, hblank⟩ := List.forall_mem_cons.1 hblank
  rw [mark_calm hcalm, List.map_cons, List.cons_append, matchGap?, if_pos hc,
    List.dropWhile_append_of_pos]
  · cases v with
    | nil => rfl
    | cons d v =>
      rw [mark, markFrom, List.dropWhile_cons_of_neg (p := fun m : Marked => isAsciiBlank m.1)]
      simp [hv d rfl]
  · intro m hm
    obtain ⟨d, hd, rfl⟩ := List.mem_map.1 hm
    exact hblank d hd

theorem isAsciiBlank_of_isAsciiWord {c : Char} (h : isAsciiWord c = true) :
    isAsciiBlank c = false := by
  by_contra hblank
  simp only [isAsciiBlank, Bool.not_eq_false, Bool.or_eq_true, beq_iff_eq] at hblank
  rcases hblank with (((rfl | rfl) | rfl) | rfl) | rfl <;> exact absurd h (by decide)

/-- What is spelled out at the front of a text is matched. -/
theorem matchWords?_of_spells (hwords : Keyword words) (h : Spells words w) (hv : EndsWord v) :
    matchWords? words (mark (w ++ v)) = some (mark v) := by
  induction h with
  | @last word w hw =>
    subst hw
    have hletters := (hwords.word _ List.mem_cons_self).2
    have hends : startsWord (mark v) = false := startsWord_eq_false_iff.2 hv
    rw [matchWords?, matchWord?_start hletters, Option.bind_eq_bind, Option.bind_some, hends]
    rfl
  | @next word w gap rest words hw hne hblank hmore ih =>
    subst hw
    have hletters := (hwords.word _ List.mem_cons_self).2
    have hmoreWords := hwords.tail hmore.words_ne_nil
    have hfirst : ∀ c ∈ (rest ++ v).head?, isAsciiBlank c = false := by
      obtain ⟨d, tail, hsplit⟩ := List.exists_cons_of_ne_nil (hmore.ne_nil hmoreWords)
      intro c hc
      rw [hsplit] at hc
      exact isAsciiBlank_of_isAsciiWord (hmore.head hmoreWords c (by rw [hsplit]; exact hc))
    rw [matchWords?, List.append_assoc, List.append_assoc, matchWord?_start hletters,
      Option.bind_eq_bind, Option.bind_some, matchGap?_start hne hblank hfirst, Option.bind_some]
    · exact ih hmoreWords
    · exact hmore.words_ne_nil

/-! ## Searching -/

/-- What a keyword can start with. -/
theorem Keyword.calm {m : Marked} {ms : List Marked} (hwords : Keyword words)
    (h : matchWords? words (m :: ms) = some rest) : Calm m.1 := by
  obtain ⟨w, word, more, rfl, hw⟩ := hwords.exists_cons
  have hlower : m.1.toLower = w := by
    by_contra hne
    rw [matchWords?_of_ne hne] at h
    exact absurd h (by simp)
  exact calm_of_toLower hw hlower

/-- Where a search ends the keyword occurs. -/
theorem occurs_of_findKeywordFrom (hwords : Keyword words) (hst : st.Sane)
    (h : findKeywordFrom words position afterWord (markFrom st cs) = some (start, stop)) :
    ∃ u w v, cs = u ++ (w ++ v) ∧ start = position + u.length ∧ stop = start + w.length ∧
      st.run u = .start ∧ Spells words w ∧ (u = [] → afterWord = false) ∧
      (∀ d ∈ u.getLast?, isAsciiWord d = false) ∧ EndsWord v := by
  induction cs generalizing st position afterWord with
  | nil => exact absurd h (by simp [markFrom, findKeywordFrom])
  | cons c cs ih =>
    rcases findKeywordFrom_cons h with ⟨rest, htop, hnot, hmatch, rfl, rfl⟩ | ⟨-, hrest⟩
    · obtain rfl := ScanState.eq_start_of_top hst (hwords.calm hmatch) (beq_iff_eq.1 htop)
      have hmatched : matchWords? words (markFrom .start (c :: cs)) = some rest := hmatch
      obtain ⟨w, v, hsplit, rfl, hw, hv⟩ := spells_of_matchWords? hmatched
      refine ⟨[], w, v, hsplit, rfl, ?_, rfl, hw, fun _ => hnot, fun d hd => absurd hd (by simp), hv⟩
      have hlength := congrArg List.length hsplit
      rw [List.length_append, List.length_cons] at hlength
      rw [List.length_cons, length_markFrom, length_markFrom, hlength, Nat.add_sub_cancel_right]
    · obtain ⟨u, w, v, rfl, rfl, rfl, hrun, hw, hfirst, hlast, hv⟩ := ih (hst.step c) hrest
      refine ⟨c :: u, w, v, rfl, by rw [List.length_cons]; omega, rfl, hrun, hw,
        fun hnil => absurd hnil (by simp), fun d hd => ?_, hv⟩
      rw [List.getLast?_cons] at hd
      cases hu : u.getLast? with
      | none =>
        rw [hu] at hd
        obtain rfl : c = d := Option.some.inj hd
        exact hfirst (List.getLast?_eq_none_iff.1 hu)
      | some last =>
        rw [hu] at hd
        exact hlast d (hu ▸ hd)

/-- A search ends no later than where the keyword occurs. -/
theorem findKeywordFrom_of_occurs (hwords : Keyword words) (hrun : st.run u = .start)
    (hw : Spells words w) (hnot : u = [] → afterWord = false)
    (hlast : ∀ d ∈ u.getLast?, isAsciiWord d = false) (hv : EndsWord v) :
    ∃ start stop, findKeywordFrom words position afterWord (markFrom st (u ++ (w ++ v))) =
      some (start, stop) ∧ start ≤ position + u.length := by
  induction u generalizing st position afterWord with
  | nil =>
    obtain rfl : st = .start := hrun
    have hmatch := matchWords?_of_spells hwords hw hv
    obtain ⟨c, w, rfl⟩ := List.exists_cons_of_ne_nil (hw.ne_nil hwords)
    have hcalm := hw.calm hwords c List.mem_cons_self
    have htop : Marked.isTop (c, Mark.code ScanState.start.depth) = true := rfl
    rw [mark, List.cons_append, markFrom, ScanState.step_of_calm rfl hcalm] at hmatch
    rw [List.nil_append, List.cons_append, markFrom, ScanState.step_of_calm rfl hcalm]
    simp only [findKeywordFrom, hnot rfl, htop, Bool.not_false, Bool.and_self, if_true, hmatch]
    exact ⟨_, _, rfl, Nat.le_refl _⟩
  | cons c u ih =>
    rw [List.cons_append, markFrom, findKeywordFrom]
    split
    · exact ⟨_, _, rfl, Nat.le_add_right _ _⟩
    · have hfirst : u = [] → isAsciiWord c = false := fun hnil => hlast c (by rw [hnil]; rfl)
      have hlater : ∀ d ∈ u.getLast?, isAsciiWord d = false := fun d hd =>
        hlast d (List.mem_getLast?_cons hd)
      have hnext : ∃ start stop, findKeywordFrom words (position + 1) (isAsciiWord c)
          (markFrom (st.step c).2 (u ++ (w ++ v))) = some (start, stop) ∧
            start ≤ position + 1 + u.length := ih hrun hfirst hlater
      obtain ⟨start, stop, hfound, hle⟩ := hnext
      exact ⟨start, stop, hfound, by rw [List.length_cons]; omega⟩

/-- A scan leaves a keyword as it comes to it. -/
theorem Occurs.run (hwords : Keyword words) (h : Occurs words u w v) :
    ScanState.run .start (u ++ w) = .start := by
  rw [ScanState.run_append, h.top, ScanState.run_of_calm rfl (h.spelled.calm hwords)]

theorem exists_occurs_of_findKeyword (hwords : Keyword words)
    (h : findKeyword words cs = some (start, stop)) :
    ∃ u w v, cs = u ++ (w ++ v) ∧ start = u.length ∧ stop = (u ++ w).length ∧ Occurs words u w v := by
  obtain ⟨u, w, v, rfl, hstart, hstop, hrun, hw, -, hlast, hv⟩ :=
    occurs_of_findKeywordFrom hwords ScanState.sane_start h
  rw [Nat.zero_add] at hstart
  exact ⟨u, w, v, rfl, hstart, by rw [hstop, hstart, List.length_append], hrun, hw, hlast, hv⟩

theorem Occurs.findKeyword (hwords : Keyword words) (h : Occurs words u w v) :
    ∃ start stop, Sql.findKeyword words (u ++ (w ++ v)) = some (start, stop) ∧ start ≤ u.length := by
  have hsearch : ∃ start stop, findKeywordFrom words 0 false
      (markFrom .start (u ++ (w ++ v))) = some (start, stop) ∧ start ≤ 0 + u.length :=
    findKeywordFrom_of_occurs hwords h.top h.spelled (fun _ => rfl) h.before h.behind
  rwa [Nat.zero_add] at hsearch

/-- A search finds the first occurrence. -/
theorem occursAt_of_findKeyword (hwords : Keyword words)
    (h : findKeyword words cs = some (start, stop)) :
    OccursAt words cs start stop ∧ ∀ i j, OccursAt words cs i j → start ≤ i := by
  refine ⟨exists_occurs_of_findKeyword hwords h, ?_⟩
  rintro i j ⟨u, w, v, rfl, rfl, -, hoccurs⟩
  obtain ⟨first, _, hfound, hle⟩ := hoccurs.findKeyword hwords
  rw [h] at hfound
  obtain ⟨rfl, -⟩ := Prod.mk.inj (Option.some.inj hfound)
  exact hle

/-- A search finds something wherever there is an occurrence. -/
theorem findKeyword_ne_none_of_occursAt (hwords : Keyword words) (h : OccursAt words cs start stop) :
    findKeyword words cs ≠ none := by
  obtain ⟨u, w, v, rfl, -, -, hoccurs⟩ := h
  obtain ⟨_, _, hfound, -⟩ := hoccurs.findKeyword hwords
  rw [hfound]
  exact Option.some_ne_none _

theorem findKeyword_of_mem_clauseMarks {m : ClauseMark} (hm : m ∈ clauseMarks cs) :
    findKeyword m.name.words cs = some (m.start, m.stop) := by
  obtain ⟨name, -, hname⟩ := List.mem_filterMap.1 (List.mem_mergeSort.1 hm)
  obtain ⟨⟨start, stop⟩, hfound, rfl⟩ := Option.map_eq_some_iff.1 hname
  exact hfound

end

end RecordShelf.Sql

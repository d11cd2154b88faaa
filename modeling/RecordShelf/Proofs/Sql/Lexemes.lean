import RecordShelf.Proofs.Sql.Statements
import RecordShelf.Proofs.Sql.Quiet

/-!
# Texts of words, signs and strings

A text that is made of words, loose characters between them, strings and the star of a count is
scanned piece by piece. A keyword is found in it only where it stands as a word of its own, whatever
the strings hold.
-/

namespace RecordShelf.Sql
open Text

/-! ## Strings -/

/-- A character of a string as it is written in quotes. -/
def escaped (c : Char) : List Char := if c = '\'' ∨ c = '\\' then [c, c] else [c]

/-- A string in single quotes. -/
def quote (s : List Char) : List Char := '\'' :: (s.flatMap escaped ++ ['\''])

theorem enclosed_escaped (s : List Char) : Enclosed '\'' (s.flatMap escaped) := by
  induction s with
  | nil => exact .nil '\''
  | cons c s ih =>
    rw [List.flatMap_cons, escaped]
    split_ifs with hc
    · rcases hc with rfl | rfl
      · exact ih.cons_cons (ScanState.step_close (.inl rfl)) (ScanState.step_open (.inl rfl))
      · exact ih.cons_cons (ScanState.step_backslash (by decide)) (ScanState.step_escaped _ _)
    · rw [not_or] at hc
      exact .cons (ScanState.step_inside hc.1 hc.2) ih

/-- All of a string is quoted, and the scan goes on behind it as before it. -/
theorem mark_quote (s rest : List Char) :
    mark (quote s ++ rest) = (quote s).map (·, Mark.quoted) ++ mark rest :=
  markFrom_enclosed (.inl rfl) (enclosed_escaped s) 0 rest

/-! ## Words and loose characters -/

/-- A character that belongs to no word and neither opens nor closes anything. -/
def isLoose (c : Char) : Bool := !isAsciiWord c && !("'\"`()".toList.contains c)

/-- The text ends a word that stands before it. -/
def EndsWord (rest : List Char) : Prop := ∀ c ∈ rest.head?, isAsciiWord c = false

theorem ends_nil : EndsWord [] := fun c hc => absurd hc (by simp)

theorem ends_cons {c : Char} (hc : isAsciiWord c = false) (rest : List Char) :
    EndsWord (c :: rest) := Reader.forall_head?_cons hc rest

theorem ends_space (rest : List Char) : EndsWord (' ' :: rest) := ends_cons (by decide) rest

theorem mark_word {name : List Char} (hname : ∀ c ∈ name, isAsciiWord c = true) (rest : List Char) :
    mark (name ++ rest) = name.map (·, Mark.code 0) ++ mark rest := by
  induction name with
  | nil => rfl
  | cons c name ih =>
    obtain ⟨hc, hname⟩ := List.forall_mem_cons.1 hname
    have hstep : ScanState.start.step c = (.code 0, .start) :=
      ScanState.step_of_calm rfl (calm_of_isWord (isWord_of_isAsciiWord hc))
    rw [List.cons_append, mark, markFrom, hstep]
    exact congrArg _ (ih hname)

theorem mark_loose {c : Char} (hc : isLoose c = true) (rest : List Char) :
    mark (c :: rest) = (c, Mark.code 0) :: mark rest := by
  have hstep : ScanState.start.step c = (.code 0, .start) := by
    have hne : ∀ d ∈ "'\"`()".toList, c ≠ d := by
      rintro d hd rfl
      rw [isLoose, List.contains_iff_mem.2 hd] at hc
      exact absurd hc (by simp)
    simp [ScanState.step, ScanState.start, hne '\'' (by decide), hne '"' (by decide),
      hne '`' (by decide), hne '(' (by decide), hne ')' (by decide)]
  rw [mark, markFrom, hstep]
  rfl

/-- The star of a count stands between its parentheses. -/
theorem mark_star (rest : List Char) : mark ('(' :: '*' :: ')' :: rest) =
    [('(', .code 0), ('*', .code 1), (')', .code 0)] ++ mark rest := rfl

/-- A text whose words and loose characters are of some kind; strings may hold anything. -/
inductive Lexed (word : List Char → Prop) (loose : Char → Prop) : List Char → Prop
  | nil : Lexed word loose []
  | word {name rest : List Char} (hne : name ≠ []) (hname : ∀ c ∈ name, isAsciiWord c = true)
      (hword : word (name.map Char.toLower)) (hends : EndsWord rest) (h : Lexed word loose rest) :
      Lexed word loose (name ++ rest)
  | loose {c : Char} {rest : List Char} (hc : isLoose c = true) (hloose : loose c)
      (h : Lexed word loose rest) : Lexed word loose (c :: rest)
  | quoted (s : List Char) {rest : List Char} (h : Lexed word loose rest) :
      Lexed word loose (quote s ++ rest)
  | star {rest : List Char} (h : Lexed word loose rest) :
      Lexed word loose ('(' :: '*' :: ')' :: rest)

namespace Lexed
variable {word word' : List Char → Prop} {loose loose' : Char → Prop} {u v : List Char}

theorem mono (h : Lexed word loose u) (hword : ∀ w, word w → word' w)
    (hloose : ∀ c, loose c → loose' c) : Lexed word' loose' u := by
  induction h with
  | nil => exact .nil
  | word hne hname hw hends _ ih => exact .word hne hname (hword _ hw) hends ih
  | loose hc hl _ ih => exact .loose hc (hloose _ hl) ih
  | quoted s _ ih => exact .quoted s ih
  | star _ ih => exact .star ih

theorem append (hu : Lexed word loose u) (hv : Lexed word loose v) (hends : EndsWord v) :
    Lexed word loose (u ++ v) := by
  induction hu with
  | nil => exact hv
  | @word name rest hne hname hw hrest _ ih =>
    rw [List.append_assoc]
    refine .word hne hname hw ?_ ih
    cases rest with
    | nil => exact hends
    | cons c rest => exact hrest
  | loose hc hl _ ih => exact .loose hc hl ih
  | quoted s _ ih => rw [List.append_assoc]; exact .quoted s ih
  | star _ ih => exact .star ih

/-- A scan comes out of the text as it went in. -/
theorem mark_append (h : Lexed word loose u) (rest : List Char) :
    mark (u ++ rest) = mark u ++ mark rest := by
  induction h with
  | nil => rfl
  | word hne hname hw hends _ ih =>
    rw [List.append_assoc, mark_word hname, mark_word hname, ih, List.append_assoc]
  | loose hc hl _ ih => rw [List.cons_append, mark_loose hc, mark_loose hc, ih, List.cons_append]
  | quoted s _ ih => rw [List.append_assoc, mark_quote, mark_quote, ih, List.append_assoc]
  | star _ ih =>
    rw [List.cons_append, List.cons_append, List.cons_append, mark_star, mark_star, ih,
      List.append_assoc]

/-- A separator that is no loose character of the text does not stand in its code. -/
theorem no_separator {sep : Char} (hsep : isLoose sep = true) (h : Lexed word (· ≠ sep) u) :
    ∀ m ∈ mark u, m.isTop = true → m.1 ≠ sep := by
  induction h with
  | nil => exact fun m hm => absurd hm List.not_mem_nil
  | @word name rest hne hname hw hends _ ih =>
    intro m hm htop
    rw [mark_word hname] at hm
    rcases List.mem_append.1 hm with hm | hm
    · obtain ⟨c, hc, rfl⟩ := List.mem_map.1 hm
      rintro rfl
      rw [isLoose, hname _ hc] at hsep
      exact absurd hsep (by simp)
    · exact ih m hm htop
  | loose hc hl _ ih =>
    intro m hm htop
    rw [mark_loose hc] at hm
    rcases List.mem_cons.1 hm with rfl | hm
    · exact hl
    · exact ih m hm htop
  | quoted s _ ih =>
    intro m hm htop
    rw [mark_quote] at hm
    rcases List.mem_append.1 hm with hm | hm
    · obtain ⟨c, -, rfl⟩ := List.mem_map.1 hm
      exact absurd htop Bool.false_ne_true
    · exact ih m hm htop
  | star _ ih =>
    intro m hm htop
    rw [mark_star] at hm
    rcases List.mem_append.1 hm with hm | hm
    · rintro rfl
      simp only [List.mem_cons, List.not_mem_nil, or_false] at hm
      rcases hm with rfl | rfl | rfl
      · exact absurd hsep (by decide)
      · exact absurd htop (by decide)
      · exact absurd hsep (by decide)
    · exact ih m hm htop

end Lexed

/-! ## Searching -/

theorem isAsciiWord_of_isUpper {c : Char} (hc : c.isUpper = true) : isAsciiWord c = true := by
  rw [isAsciiWord, isAlphanum_iff.2 (Or.inl (isAlpha_iff.2 (Or.inl hc))), Bool.true_or]

theorem isAsciiWord_of_toLower {c : Char} (h : c.toLower.isAlpha = true) : isAsciiWord c = true := by
  by_cases hupper : c.isUpper = true
  · exact isAsciiWord_of_isUpper hupper
  · have hsame : c.toLower = c := toLower_of_isUpper_eq_false (Bool.eq_false_iff.2 hupper)
    rw [hsame] at h
    simp [isAsciiWord, Char.isAlphanum, h]

section
variable {w : Char} {word : List Char} {more : List (List Char)} {ms : List Marked}

/-- No marked text starts with a word. -/
def EndsMarked (ms : List Marked) : Prop := ∀ m ∈ ms.head?, isAsciiWord m.1 = false

theorem endsMarked_mark {rest : List Char} (h : EndsWord rest) : EndsMarked (mark rest) := by
  cases rest with
  | nil => exact fun m hm => absurd hm (by simp [mark, markFrom])
  | cons c rest =>
    intro m hm
    obtain rfl := Option.some.inj hm
    exact h c rfl

/-- A word that is matched in another one is that word, or more of the other one follows. -/
theorem matchWord?_word {name after : List (Char)} {rest : List Marked}
    (hword : ∀ x ∈ after, x.isAlpha = true) (hname : ∀ c ∈ name, isAsciiWord c = true)
    (hms : EndsMarked ms)
    (h : matchWord? after (name.map (·, Mark.code 0) ++ ms) = some rest) :
    name.map Char.toLower = after ∧ rest = ms ∨ startsWord rest = true := by
  induction after generalizing name with
  | nil =>
    obtain rfl := Option.some.inj h
    cases name with
    | nil => exact Or.inl ⟨rfl, rfl⟩
    | cons c name => exact Or.inr (hname c List.mem_cons_self)
  | cons x after ih =>
    obtain ⟨hx, hafter⟩ := List.forall_mem_cons.1 hword
    cases name with
    | nil =>
      cases ms with
      | nil => exact absurd h (by simp [matchWord?])
      | cons m ms =>
        rw [List.map_nil, List.nil_append, matchWord?] at h
        split_ifs at h with hm
        have hends := hms m rfl
        rw [isAsciiWord_of_toLower (by rw [hm.1]; exact hx)] at hends
        exact absurd hends (by decide)
    | cons c name =>
      obtain ⟨hc, hname⟩ := List.forall_mem_cons.1 hname
      rw [List.map_cons, List.cons_append, matchWord?] at h
      split_ifs at h with hm
      rcases ih hafter hname h with ⟨hsame, hrest⟩ | hmore
      · exact Or.inl ⟨by rw [List.map_cons, hm.1, hsame], hrest⟩
      · exact Or.inr hmore

/-- No gap starts where a word goes on. -/
theorem matchGap?_of_startsWord {rest : List Marked} (h : startsWord rest = true) :
    matchGap? rest = none := by
  cases rest with
  | nil => rfl
  | cons m rest =>
    have hblank : isAsciiBlank m.1 = false := by
      by_contra hblank
      have hwhite : isAsciiWord m.1 = false := by
        simp only [isAsciiBlank, Bool.not_eq_false, Bool.or_eq_true, beq_iff_eq] at hblank
        rcases hblank with (((h | h) | h) | h) | h <;> rw [h] <;> decide
      exact absurd (hwhite.symm.trans h) (by decide)
    rw [matchGap?, if_neg (by simp [hblank])]

/-- A keyword does not start with a word that is not its first one. -/
theorem matchWords?_word {name : List Char} (hword : ∀ x ∈ w :: word, x.isAlpha = true)
    (hname : ∀ c ∈ name, isAsciiWord c = true) (hms : EndsMarked ms)
    (hne : name.map Char.toLower ≠ w :: word) :
    matchWords? ((w :: word) :: more) (name.map (·, Mark.code 0) ++ ms) = none := by
  cases hmatch : matchWord? (w :: word) (name.map (·, Mark.code 0) ++ ms) with
  | none =>
    cases more with
    | nil => rw [matchWords?, hmatch]; rfl
    | cons next more => rw [matchWords?, hmatch]; rfl; simp
  | some rest =>
    have hstarts : startsWord rest = true :=
      (matchWord?_word hword hname hms hmatch).resolve_left fun h => hne h.1
    cases more with
    | nil => simp [matchWords?, hmatch, hstarts]
    | cons next more =>
      rw [matchWords?, hmatch]
      · simp [matchGap?_of_startsWord hstarts]
      · simp

theorem findKeywordFrom_inWord {name : List Char} (words : List (List Char)) (position : ℕ)
    (hname : ∀ c ∈ name, isAsciiWord c = true) :
    findKeywordFrom words position true (name.map (·, Mark.code 0) ++ ms) =
      findKeywordFrom words (position + name.length) true ms := by
  induction name generalizing position with
  | nil => rfl
  | cons c name ih =>
    obtain ⟨hc, hname⟩ := List.forall_mem_cons.1 hname
    have hlength : position + 1 + name.length = position + (c :: name).length := by
      rw [List.length_cons]
      omega
    rw [List.map_cons, List.cons_append, findKeywordFrom, Bool.not_true, Bool.and_false,
      if_neg Bool.false_ne_true]
    dsimp only
    rw [hc, ih (position + 1) hname, hlength]

theorem toLower_ne (hw : w.isAlpha = true) {c : Char} (hc : isAsciiWord c = false) :
    c.toLower ≠ w := by
  rintro rfl
  rw [isAsciiWord_of_toLower hw] at hc
  exact absurd hc (by decide)

/-- A character that belongs to no word is passed over, whatever stands before it. -/
theorem findKeywordFrom_pass (hw : w.isAlpha = true) {m : Marked} (hm : isAsciiWord m.1 = false)
    (position : ℕ) (afterWord : Bool) :
    findKeywordFrom ((w :: word) :: more) position afterWord (m :: ms) =
      findKeywordFrom ((w :: word) :: more) (position + 1) false ms := by
  rw [findKeywordFrom, matchWords?_of_ne (toLower_ne hw hm), ite_self]
  dsimp only
  rw [hm]

/-- Where no word starts it does not matter what stands before. -/
theorem findKeywordFrom_ends (hw : w.isAlpha = true) (position : ℕ) (afterWord : Bool)
    (hms : EndsMarked ms) : findKeywordFrom ((w :: word) :: more) position afterWord ms =
      findKeywordFrom ((w :: word) :: more) position false ms := by
  cases ms with
  | nil => rfl
  | cons m ms => rw [findKeywordFrom_pass hw (hms m rfl), findKeywordFrom_pass hw (hms m rfl)]

/-- A word that is not the first one of a keyword is passed over as a whole. -/
theorem findKeywordFrom_word {name tail : List Char} (hword : ∀ x ∈ w :: word, x.isAlpha = true)
    (hnonempty : name ≠ []) (hname : ∀ c ∈ name, isAsciiWord c = true)
    (hne : name.map Char.toLower ≠ w :: word) (htail : EndsMarked (mark tail)) (position : ℕ) :
    findKeywordFrom ((w :: word) :: more) position false (mark (name ++ tail)) =
      findKeywordFrom ((w :: word) :: more) (position + name.length) false (mark tail) := by
  have hmatch : matchWords? ((w :: word) :: more) (name.map (·, Mark.code 0) ++ mark tail) = none :=
    matchWords?_word hword hname htail hne
  rw [mark_word hname]
  obtain ⟨c, name, rfl⟩ := List.exists_cons_of_ne_nil hnonempty
  obtain ⟨hc, hname⟩ := List.forall_mem_cons.1 hname
  rw [List.map_cons, List.cons_append] at hmatch ⊢
  rw [findKeywordFrom, hmatch, ite_self]
  dsimp only
  rw [hc, findKeywordFrom_inWord _ _ hname,
    findKeywordFrom_ends (hword w List.mem_cons_self) _ _ htail, List.length_cons, Nat.add_assoc,
    Nat.add_comm 1]

theorem findKeywordFrom_quoted (words : List (List Char)) (cs : List Char) (c : Char)
    (position : ℕ) (afterWord : Bool) :
    findKeywordFrom words position afterWord ((cs ++ [c]).map (·, Mark.quoted) ++ ms) =
      findKeywordFrom words (position + (cs ++ [c]).length) (isAsciiWord c) ms := by
  induction cs generalizing position afterWord with
  | nil => rfl
  | cons d cs ih =>
    have hlength : position + 1 + (cs ++ [c]).length = position + (d :: cs ++ [c]).length := by
      rw [List.cons_append, List.length_cons]
      omega
    have hquoted : Marked.isTop (d, Mark.quoted) = false := rfl
    rw [List.cons_append, List.map_cons, List.cons_append, findKeywordFrom, hquoted,
      Bool.false_and, if_neg Bool.false_ne_true]
    dsimp only
    rw [ih, hlength, List.cons_append]

theorem isAsciiWord_of_isLoose {c : Char} (hc : isLoose c = true) : isAsciiWord c = false := by
  rw [isLoose, Bool.and_eq_true, Bool.not_eq_true'] at hc
  exact hc.1

/-- A text without the first word of a keyword is passed over, up to a place where no word starts. -/
theorem Lexed.pass (hword : ∀ x ∈ w :: word, x.isAlpha = true) {loose : Char → Prop}
    {u rest : List Char} (h : Lexed (· ≠ w :: word) loose u) (hrest : EndsWord rest) (position : ℕ) :
    findKeywordFrom ((w :: word) :: more) position false (mark (u ++ rest)) =
      findKeywordFrom ((w :: word) :: more) (position + u.length) false (mark rest) := by
  have hw := hword w List.mem_cons_self
  induction h generalizing position with
  | nil => rfl
  | @word name tail hne hname hother hends _ ih =>
    have htail : EndsMarked (mark (tail ++ rest)) := by
      apply endsMarked_mark
      cases tail with
      | nil => exact hrest
      | cons c tail => exact hends
    rw [List.append_assoc, findKeywordFrom_word hword hne hname hother htail, ih,
      List.length_append, Nat.add_assoc]
  | @loose c tail hc _ _ ih =>
    have hlength : position + 1 + tail.length = position + (c :: tail).length := by
      rw [List.length_cons]
      omega
    have hpassed : isAsciiWord (c, Mark.code 0).1 = false := isAsciiWord_of_isLoose hc
    rw [List.cons_append, mark_loose hc, findKeywordFrom_pass hw hpassed, ih, hlength]
  | @quoted s tail _ ih =>
    have hquote : quote s = ('\'' :: s.flatMap escaped) ++ ['\''] := rfl
    have hlength : position + (quote s).length + tail.length =
        position + (quote s ++ tail).length := by
      rw [List.length_append]
      omega
    have hclose : isAsciiWord '\'' = false := by decide
    rw [List.append_assoc, mark_quote, hquote, findKeywordFrom_quoted, hclose, ih, ← hquote, hlength]
  | @star tail _ ih =>
    rw [List.cons_append, List.cons_append, List.cons_append, mark_star, List.cons_append,
      List.cons_append, List.singleton_append, findKeywordFrom_pass hw (by decide),
      findKeywordFrom_pass hw (by decide), findKeywordFrom_pass hw (by decide), ih]
    congr 1
    simp only [List.length_cons]
    omega

end

/-! ## Keywords in their places -/

section
variable {w : Char} {word : List Char} {more : List (List Char)} {loose : Char → Prop}
  {u : List Char}

theorem findKeyword_absent (hword : (w :: word).all Char.isAlpha = true)
    (h : Lexed (· ≠ w :: word) loose u) : findKeyword ((w :: word) :: more) u = none := by
  have hpass : findKeywordFrom ((w :: word) :: more) 0 false (mark (u ++ [])) = none :=
    h.pass (List.all_eq_true.1 hword) ends_nil 0
  rw [List.append_nil] at hpass
  rw [findKeyword, hpass]

/-- A keyword is found behind a text without its first word. -/
theorem findKeyword_behind (hword : (w :: word).all Char.isAlpha = true)
    (h : Lexed (· ≠ w :: word) loose u) {written rest : List Char} {m : Marked} {ms : List Marked}
    (hmark : mark (written ++ rest) = m :: ms) (htop : m.isTop = true)
    (hmatch : matchWords? ((w :: word) :: more) (mark (written ++ rest)) = some (mark rest)) :
    findKeyword ((w :: word) :: more) (u ++ ' ' :: (written ++ rest)) =
      some (u.length + 1, u.length + 1 + written.length) := by
  have hletters := List.all_eq_true.1 hword
  have hw := hletters w List.mem_cons_self
  have hlength : (m :: ms).length - (mark rest).length = written.length := by
    rw [← hmark, mark, mark, length_markFrom, length_markFrom, List.length_append,
      Nat.add_sub_cancel_right]
  rw [findKeyword, h.pass hletters (ends_space _), mark_loose (by decide), findKeywordFrom_pass hw (by decide),
    hmark, findKeywordFrom, htop, ← hmark, hmatch]
  simp only [Bool.not_false, Bool.and_self, if_true]
  rw [hmark, hlength, Nat.zero_add]

end

end RecordShelf.Sql

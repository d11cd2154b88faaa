import RecordShelf.Proofs.Sql.Pieces

/-!
# Where a word stands by itself

A search for a word ends where the word stands by itself in top-level code, and at the first such
place. What is cut off at an AND holds no further AND before it.
-/

namespace RecordShelf.Sql
open Text

/-- Between two parts of a text stands a word, in any case and in top-level code, that does not run
on to either side. -/
structure Stands (word u w v : List Char) : Prop where
  top : ScanState.run .start u = .start
  letters : w.map Char.toLower = word
  before : ∀ d ∈ u.getLast?, isAsciiWord d = false
  behind : EndsWord v

section
variable {word u w v cs : List Char} {start stop : ℕ}

theorem Stands.occurs (h : Stands word u w v) : Occurs [word] u w v :=
  ⟨h.top, .last h.letters, h.before, h.behind⟩

theorem Occurs.stands (h : Occurs [word] u w v) : Stands word u w v :=
  ⟨h.top, h.spelled.single, h.before, h.behind⟩

/-! ## AND -/

/-- The word AND stands nowhere in the text. -/
def NoAnd (cs : List Char) : Prop := ∀ u w v, cs = u ++ (w ++ v) → ¬ Stands "and".toList u w v

theorem exists_stands_and (h : findKeyword andWord cs = some (start, stop)) :
    ∃ u w v, cs = u ++ (w ++ v) ∧ start = u.length ∧ stop = (u ++ w).length ∧
      Stands "and".toList u w v := by
  obtain ⟨u, w, v, hsplit, hstart, hstop, hoccurs⟩ :=
    exists_occurs_of_findKeyword keyword_and h
  exact ⟨u, w, v, hsplit, hstart, hstop, hoccurs.stands⟩

theorem findKeyword_of_stands (h : Stands "and".toList u w v) :
    ∃ start stop, findKeyword andWord (u ++ (w ++ v)) = some (start, stop) ∧ start ≤ u.length :=
  h.occurs.findKeyword keyword_and

theorem Stands.length (h : Stands word u w v) : w.length = word.length := by
  rw [← h.letters, List.length_map]

theorem Stands.letter (hletters : word.all Char.isAlpha = true) (h : Stands word u w v) :
    ∀ c ∈ w, isAsciiWord c = true := isAsciiWord_of_letters hletters h.letters

theorem Stands.calm (hletters : word.all Char.isAlpha = true) (h : Stands word u w v) :
    ∀ c ∈ w, Calm c :=
  fun c hc => calm_of_isWord (isWord_of_isAsciiWord (h.letter hletters c hc))

theorem noAnd_of_none (h : findKeyword andWord cs = none) : NoAnd cs := by
  rintro u w v rfl hstands
  obtain ⟨_, _, hfound, -⟩ := findKeyword_of_stands hstands
  exact nomatch h.symm.trans hfound

/-- Before the first AND there is none, not even one that would run on into it. -/
theorem noAnd_before (h : findKeyword andWord (u ++ (w ++ v)) = some (u.length, stop))
    (hlast : ∀ d ∈ u.getLast?, isAsciiWord d = false) : NoAnd u := by
  rintro u₁ w₁ v₁ rfl hstands
  have hlength : w₁.length = 3 := hstands.length
  cases v₁ with
  | nil =>
    have hne : w₁ ≠ [] := List.ne_nil_of_length_eq_add_one hlength
    have hword : isAsciiWord (w₁.getLast hne) = true :=
      hstands.letter (by decide) _ (List.getLast_mem hne)
    have hnot := hlast (w₁.getLast hne) (by
      rw [List.append_nil, List.getLast?_append, List.getLast?_eq_some_getLast hne]
      rfl)
    exact absurd (hword.symm.trans hnot) (by decide)
  | cons c v₁ =>
    have hlonger : Stands "and".toList u₁ w₁ (c :: v₁ ++ (w ++ v)) :=
      ⟨hstands.top, hstands.letters, hstands.before, hstands.behind⟩
    obtain ⟨_, _, hfound, hle⟩ := findKeyword_of_stands hlonger
    have hsame : u₁ ++ (w₁ ++ c :: v₁) ++ (w ++ v) = u₁ ++ (w₁ ++ (c :: v₁ ++ (w ++ v))) := by
      simp only [List.append_assoc]
    rw [hsame, hfound] at h
    obtain ⟨rfl, -⟩ := Prod.mk.inj (Option.some.inj h)
    simp only [List.length_append] at hle
    omega

theorem isAsciiWord_of_isWhite {c : Char} (h : isWhite c = true) : isAsciiWord c = false := by
  by_contra hword
  rw [isWhite_of_isAsciiWord (Bool.not_eq_false _ ▸ hword)] at h
  exact absurd h (by decide)

theorem NoAnd.trim (h : NoAnd cs) : NoAnd (Text.trim cs) := by
  obtain ⟨blank, hsplit, hblank⟩ := Piece.trim_append cs
  rintro u w v htrim hstands
  have hfront : ∀ c ∈ cs.takeWhile isWhite, isWhite c = true :=
    fun c hc => List.mem_takeWhile_imp hc
  refine h (cs.takeWhile isWhite ++ u) w (v ++ blank) ?_ ⟨?_, hstands.letters, fun d hd => ?_, ?_⟩
  · rw [htrim] at hsplit
    exact hsplit.trans (by simp only [List.append_assoc])
  · rw [ScanState.run_append, ScanState.run_of_calm rfl fun c hc => calm_of_isWhite (hfront c hc)]
    exact hstands.top
  · rw [List.getLast?_append] at hd
    cases hlast : u.getLast? with
    | none =>
      rw [hlast] at hd
      exact isAsciiWord_of_isWhite (hfront d (List.mem_of_getLast? hd))
    | some last =>
      rw [hlast] at hd
      exact hstands.before d (hlast ▸ hd)
  · cases v with
    | nil =>
      intro c hc
      exact isAsciiWord_of_isWhite (hblank c (List.mem_of_mem_head? hc))
    | cons c v => exact hstands.behind

end

end RecordShelf.Sql

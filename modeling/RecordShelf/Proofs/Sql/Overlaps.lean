import RecordShelf.Proofs.Sql.Occurrences

/-!
# Keywords that overlap

Where two occurrences of keywords overlap, the one farther on starts with a word of the other one.
So keywords do not overlap if none starts with a word of another.
-/

namespace RecordShelf.Sql
open Text

section
variable {words others more : List (List Char)} {u w v u' w' v' x y cs : List Char}
  {start stop start' stop' : ℕ}

theorem Keyword.suffix (hwords : Keyword words) (hmore : more <:+ words) (hne : more ≠ []) :
    Keyword more :=
  ⟨hne, fun word hword => hwords.word word (hmore.mem hword)⟩

theorem isAsciiWord_of_isAsciiBlank {c : Char} (h : isAsciiBlank c = true) :
    isAsciiWord c = false := by
  by_contra hword
  rw [isAsciiBlank_of_isAsciiWord (Bool.not_eq_false _ ▸ hword)] at h
  exact absurd h (by decide)

/-- A longer front of a text starts with a shorter one. -/
theorem exists_append_of_length_le (h : u ++ v = u' ++ v') (hle : u.length ≤ u'.length) :
    ∃ x, u' = u ++ x ∧ v = x ++ v' := by
  obtain ⟨x, rfl⟩ := List.prefix_of_prefix_length_le ⟨v, h⟩ ⟨v', rfl⟩ hle
  rw [List.append_assoc] at h
  exact ⟨x, rfl, List.append_cancel_left h⟩

/-- Nowhere inside a word does a word start. -/
theorem eq_nil_of_letters {word : List Char} (hletters : word.all Char.isAlpha = true)
    (hw : (x ++ y).map Char.toLower = word) (hx : ∀ d ∈ x.getLast?, isAsciiWord d = false) :
    x = [] := by
  by_contra hne
  have hword := isAsciiWord_of_letters hletters hw (x.getLast hne)
    (List.mem_append_left y (List.getLast_mem hne))
  exact absurd (hword.symm.trans (hx _ (List.getLast?_eq_some_getLast hne))) (by decide)

/-- From the start of one of its words on, a keyword spells its words from that one on. -/
theorem Spells.suffix (hwords : Keyword words) (h : Spells words (x ++ y))
    (hx : ∀ d ∈ x.getLast?, isAsciiWord d = false) (hy : ∀ c ∈ y.head?, isAsciiWord c = true)
    (hne : y ≠ []) : ∃ more, more <:+ words ∧ Spells more y := by
  generalize htext : x ++ y = text at h
  induction h generalizing x with
  | @last word w hw =>
    subst htext
    obtain rfl := eq_nil_of_letters (hwords.word word List.mem_cons_self).2 hw hx
    exact ⟨[word], List.suffix_rfl, .last hw⟩
  | @next word w gap rest words hw hgap hblank hmore ih =>
    have hletters := (hwords.word word List.mem_cons_self).2
    rcases List.append_eq_append_iff.1 htext with ⟨x', rfl, hrest⟩ | ⟨x', rfl, hrest⟩
    · obtain rfl := eq_nil_of_letters hletters hw hx
      obtain rfl : y = x' ++ (gap ++ rest) := htext
      exact ⟨word :: words, List.suffix_rfl, .next hw hgap hblank hmore⟩
    · rcases List.append_eq_append_iff.1 hrest with ⟨x'', rfl, rfl⟩ | ⟨g, rfl, rfl⟩
      · have hlast : ∀ d ∈ x''.getLast?, isAsciiWord d = false := fun d hd =>
          hx d (List.mem_getLast?_append_of_mem_getLast? (List.mem_getLast?_append_of_mem_getLast? hd))
        obtain ⟨more, hsuffix, hspells⟩ := ih (hwords.tail hmore.words_ne_nil) hlast rfl
        exact ⟨more, hsuffix.trans (List.suffix_cons word words), hspells⟩
      · -- Among the blanks only their end is the start of a word.
        cases g with
        | nil =>
          obtain ⟨more, hsuffix, hspells⟩ := ih (x := []) (hwords.tail hmore.words_ne_nil)
            (fun d hd => absurd hd (by simp)) rfl
          exact ⟨more, hsuffix.trans (List.suffix_cons word words), hspells⟩
        | cons c g =>
          have hc := isAsciiWord_of_isAsciiBlank (hblank c (by simp))
          exact absurd (hc.symm.trans (hy c rfl)) (by decide)

/-- The first word of a keyword is the word that stands at its front. -/
theorem Spells.first (hwords : Keyword words) (h : Spells words w) (hv : EndsWord v) :
    words.head? = some (((w ++ v).takeWhile isAsciiWord).map Char.toLower) := by
  cases h with
  | @last word w hw =>
    have hletters := isAsciiWord_of_letters (hwords.word word List.mem_cons_self).2 hw
    rw [Reader.takeWhile_append hletters hv, hw]
    rfl
  | @next word w gap rest words hw hgap hblank hmore =>
    have hletters := isAsciiWord_of_letters (hwords.word word List.mem_cons_self).2 hw
    obtain ⟨c, gap, rfl⟩ := List.exists_cons_of_ne_nil hgap
    have hends : EndsWord (c :: gap ++ rest ++ v) :=
      ends_cons (isAsciiWord_of_isAsciiBlank (hblank c List.mem_cons_self)) (gap ++ rest ++ v)
    rw [List.append_assoc, Reader.takeWhile_append hletters hends, hw]
    rfl

/-- Where two occurrences overlap, the second starts with a word of the first. -/
theorem Occurs.overlap (hothers : Keyword others) (h : Occurs words u w v)
    (h' : Occurs others u' w' v') (hsame : u ++ (w ++ v) = u' ++ (w' ++ v'))
    (hle : u.length ≤ u'.length) (hlt : u'.length < (u ++ w).length) :
    ∃ x y, u' = u ++ x ∧ w = x ++ y ∧ w' ++ v' = y ++ v ∧ y ≠ [] ∧
      (∀ d ∈ x.getLast?, isAsciiWord d = false) ∧ ∀ c ∈ y.head?, isAsciiWord c = true := by
  obtain ⟨x, rfl, hrest⟩ := exists_append_of_length_le hsame hle
  have hinside : x.length ≤ w.length := by
    rw [List.length_append, List.length_append] at hlt
    omega
  obtain ⟨y, rfl, hbehind⟩ := exists_append_of_length_le hrest.symm hinside
  have hne : y ≠ [] := by
    rintro rfl
    exact absurd hlt (by rw [List.append_nil]; exact Nat.lt_irrefl _)
  refine ⟨x, y, rfl, rfl, hbehind, hne, fun d hd => ?_, ?_⟩
  · exact h'.before d (List.mem_getLast?_append_of_mem_getLast? hd)
  · obtain ⟨c, y, rfl⟩ := List.exists_cons_of_ne_nil hne
    obtain ⟨d, w', rfl⟩ := List.exists_cons_of_ne_nil (h'.spelled.ne_nil hothers)
    obtain ⟨rfl, -⟩ := List.cons.inj hbehind
    exact fun e he => h'.spelled.head hothers e he

/-- Where a keyword occurs no other one occurs that starts with none of its words. -/
theorem OccursAt.disjoint (hwords : Keyword words) (hothers : Keyword others)
    (hfirst : ∀ word ∈ words, others.head? ≠ some word) (h : OccursAt words cs start stop)
    (h' : OccursAt others cs start' stop') (hle : start ≤ start') : stop ≤ start' := by
  obtain ⟨u, w, v, rfl, rfl, rfl, hoccurs⟩ := h
  obtain ⟨u', w', v', hsame, rfl, rfl, hoccurs'⟩ := h'
  by_contra hlt
  obtain ⟨x, y, rfl, rfl, hbehind, hne, hstart, hhead⟩ :=
    hoccurs.overlap hothers hoccurs' hsame hle (Nat.lt_of_not_le hlt)
  obtain ⟨more, hsuffix, hspells⟩ := hoccurs.spelled.suffix hwords hstart hhead hne
  have hmore := hwords.suffix hsuffix hspells.words_ne_nil
  obtain ⟨word, more, rfl⟩ := List.exists_cons_of_ne_nil hspells.words_ne_nil
  have hword : others.head? = some word := by
    rw [hoccurs'.spelled.first hothers hoccurs'.behind, hbehind, ← hspells.first hmore hoccurs.behind]
    rfl
  exact hfirst word (hsuffix.mem List.mem_cons_self) hword

/-- A keyword of one word does not overlap itself. -/
theorem OccursAt.disjoint_self {word : List Char} (hword : Keyword [word])
    (h : OccursAt [word] cs start stop) (h' : OccursAt [word] cs start' stop')
    (hlt : start < start') : stop ≤ start' := by
  obtain ⟨u, w, v, rfl, rfl, rfl, hoccurs⟩ := h
  obtain ⟨u', w', v', hsame, rfl, rfl, hoccurs'⟩ := h'
  by_contra hinside
  obtain ⟨x, y, rfl, rfl, -, -, hstart, -⟩ :=
    hoccurs.overlap hword hoccurs' hsame (Nat.le_of_lt hlt) (Nat.lt_of_not_le hinside)
  obtain rfl := eq_nil_of_letters (hword.word word List.mem_cons_self).2 hoccurs.spelled.single hstart
  exact absurd hlt (by rw [List.append_nil]; exact Nat.lt_irrefl _)

end

end RecordShelf.Sql

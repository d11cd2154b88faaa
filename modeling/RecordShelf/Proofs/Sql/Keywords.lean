import Mathlib.Data.Nat.Notation
import Mathlib.Tactic.SplitIfs
import RecordShelf.Sql.TopLevel

/-!
# Finding keywords

Where a keyword is found, that more text after it changes nothing, and texts without its first
letter, which do not have it.
-/

namespace RecordShelf.Sql
open Text

/-! ## One word -/

theorem length_matchWord? {word : List Char} {ms rest : List Marked}
    (h : matchWord? word ms = some rest) : word.length + rest.length = ms.length := by
  induction word generalizing ms with
  | nil =>
    obtain rfl := Option.some.inj h
    simp
  | cons w word ih =>
    cases ms with
    | nil => exact absurd h (by simp [matchWord?])
    | cons m ms =>
      rw [matchWord?] at h
      split_ifs at h
      have := ih h
      rw [List.length_cons, List.length_cons]
      omega

theorem matchWord?_append {word : List Char} {ms : List Marked} (h : word.length ≤ ms.length)
    (ns : List Marked) : matchWord? word (ms ++ ns) = (matchWord? word ms).map (· ++ ns) := by
  induction word generalizing ms with
  | nil => rfl
  | cons w word ih =>
    cases ms with
    | nil => exact absurd h (by simp)
    | cons m ms =>
      rw [List.cons_append, matchWord?, matchWord?]
      split_ifs
      · exact ih (Nat.le_of_succ_le_succ h)
      · rfl

theorem matchWords?_singleton_append {word : List Char} {ms : List Marked}
    (h : word.length < ms.length) (ns : List Marked) :
    matchWords? [word] (ms ++ ns) = (matchWords? [word] ms).map (· ++ ns) := by
  rw [matchWords?, matchWords?, matchWord?_append (Nat.le_of_lt h)]
  cases hrest : matchWord? word ms with
  | none => rfl
  | some rest =>
    have hlength := length_matchWord? hrest
    cases rest with
    | nil => exact absurd hlength (by simp; omega)
    | cons m rest =>
      simp only [Option.map_some, Option.bind_eq_bind, Option.bind_some, List.cons_append,
        startsWord]
      by_cases hword : isAsciiWord m.1 = true
      · simp [hword]
      · simp [hword]

/-! ## Several words -/

/-- Words are matched in a changed text as in the text itself if each of them is, the blanks between
them are, and no word comes to run on or to end. -/
theorem matchWords?_comm {f : List Marked → List Marked} {words : List (List Char)}
    (hword : ∀ word ∈ words, ∀ ms, matchWord? word (f ms) = (matchWord? word ms).map f)
    (hgap : ∀ ms, matchGap? (f ms) = (matchGap? ms).map f)
    (hstarts : ∀ ms, startsWord (f ms) = startsWord ms) (ms : List Marked) :
    matchWords? words (f ms) = (matchWords? words ms).map f := by
  induction words, ms using matchWords?.induct with
  | case1 ms => rfl
  | case2 word ms =>
    rw [matchWords?, matchWords?, hword word List.mem_cons_self]
    cases matchWord? word ms with
    | none => rfl
    | some rest =>
      simp only [Option.map_some, Option.bind_eq_bind, Option.bind_some, hstarts]
      split_ifs <;> rfl
  | case3 word words ms hne ih =>
    have hmore : ∀ other ∈ words, ∀ ms, matchWord? other (f ms) = (matchWord? other ms).map f :=
      fun other hother => hword other (List.mem_cons_of_mem word hother)
    rw [matchWords?, matchWords?, hword word List.mem_cons_self]
    · cases matchWord? word ms with
      | none => rfl
      | some rest =>
        simp only [Option.map_some, Option.bind_eq_bind, Option.bind_some, hgap]
        cases matchGap? rest with
        | none => rfl
        | some rest => exact ih rest hmore
    all_goals exact hne

/-- A match takes the front of what it is tried on. -/
theorem suffix_of_matchWord? {word : List Char} {ms rest : List Marked}
    (h : matchWord? word ms = some rest) : rest <:+ ms := by
  induction word generalizing ms with
  | nil =>
    obtain rfl := Option.some.inj h
    exact List.suffix_rfl
  | cons w word ih =>
    cases ms with
    | nil => exact absurd h (by simp [matchWord?])
    | cons m ms =>
      rw [matchWord?] at h
      split_ifs at h
      exact (ih h).trans (List.suffix_cons m ms)

theorem suffix_of_matchGap? {ms rest : List Marked} (h : matchGap? ms = some rest) :
    rest <:+ ms := by
  cases ms with
  | nil => exact absurd h (by simp [matchGap?])
  | cons m ms =>
    rw [matchGap?] at h
    split_ifs at h
    obtain rfl := Option.some.inj h
    exact (List.dropWhile_suffix _).trans (List.suffix_cons m ms)

theorem suffix_of_matchWords? {words : List (List Char)} {ms rest : List Marked}
    (h : matchWords? words ms = some rest) : rest <:+ ms := by
  induction words, ms using matchWords?.induct with
  | case1 ms => exact absurd h (by simp [matchWords?])
  | case2 word ms =>
    rw [matchWords?] at h
    obtain ⟨after, hword, hend⟩ := Option.bind_eq_some_iff.1 h
    split_ifs at hend
    obtain rfl := Option.some.inj hend
    exact suffix_of_matchWord? hword
  | case3 word words ms hne ih =>
    rw [matchWords?] at h
    · obtain ⟨after, hword, h⟩ := Option.bind_eq_some_iff.1 h
      obtain ⟨gap, hgap, h⟩ := Option.bind_eq_some_iff.1 h
      exact (ih gap h).trans ((suffix_of_matchGap? hgap).trans (suffix_of_matchWord? hword))
    · exact hne

/-! ## Searching -/

section
variable {words : List (List Char)} {word cs : List Char} {position start stop : ℕ}
  {afterWord : Bool} {ms : List Marked}

/-- A search that starts at a later position finds the same farther on. -/
theorem findKeywordFrom_add (words : List (List Char)) (n position : ℕ) (afterWord : Bool)
    (ms : List Marked) : findKeywordFrom words (n + position) afterWord ms =
      (findKeywordFrom words position afterWord ms).map fun range => (n + range.1, n + range.2) := by
  induction ms generalizing position afterWord with
  | nil => rfl
  | cons m ms ih =>
    rw [findKeywordFrom, findKeywordFrom]
    split
    · simp only [Option.map_some, Nat.add_assoc]
    · rw [Nat.add_assoc, ih]

/-- Each step of a search either finds the keyword or goes on behind the first character. -/
theorem findKeywordFrom_cons {m : Marked}
    (h : findKeywordFrom words position afterWord (m :: ms) = some (start, stop)) :
    (∃ rest, m.isTop = true ∧ afterWord = false ∧ matchWords? words (m :: ms) = some rest ∧
      start = position ∧ stop = position + ((m :: ms).length - rest.length)) ∨
    (if m.isTop && !afterWord then matchWords? words (m :: ms) else none) = none ∧
      findKeywordFrom words (position + 1) (isAsciiWord m.1) ms = some (start, stop) := by
  rw [findKeywordFrom] at h
  split at h
  · rename_i rest hrest
    split_ifs at hrest with hcond
    rw [Bool.and_eq_true, Bool.not_eq_true'] at hcond
    cases h
    exact Or.inl ⟨rest, hcond.1, hcond.2, hrest, rfl, rfl⟩
  · rename_i hnone
    exact Or.inr ⟨hnone, h⟩

theorem le_start_of_findKeywordFrom
    (h : findKeywordFrom words position afterWord ms = some (start, stop)) : position ≤ start := by
  induction ms generalizing position afterWord with
  | nil => exact absurd h (by simp [findKeywordFrom])
  | cons m ms ih =>
    rcases findKeywordFrom_cons h with ⟨_, _, _, _, rfl, _⟩ | ⟨_, hrest⟩
    · exact Nat.le_refl start
    · exact Nat.le_of_succ_le (ih hrest)

theorem stop_eq_of_findKeywordFrom
    (h : findKeywordFrom [word] position afterWord ms = some (start, stop)) :
    stop = start + word.length := by
  induction ms generalizing position afterWord with
  | nil => exact absurd h (by simp [findKeywordFrom])
  | cons m ms ih =>
    rcases findKeywordFrom_cons h with ⟨rest, _, _, hmatch, rfl, rfl⟩ | ⟨_, hrest⟩
    · rw [matchWords?] at hmatch
      obtain ⟨after, hword, hafter⟩ := Option.bind_eq_some_iff.1 hmatch
      split_ifs at hafter
      cases hafter
      have := length_matchWord? hword
      omega
    · exact ih hrest

theorem findKeywordFrom_append
    (h : findKeywordFrom [word] position afterWord ms = some (start, stop))
    (hstop : stop < position + ms.length) (ns : List Marked) :
    findKeywordFrom [word] position afterWord (ms ++ ns) = some (start, stop) := by
  induction ms generalizing position afterWord with
  | nil => exact absurd h (by simp [findKeywordFrom])
  | cons m ms ih =>
    have hlong : word.length < (m :: ms).length := by
      have hle := le_start_of_findKeywordFrom h
      have heq := stop_eq_of_findKeywordFrom h
      omega
    have hmore := matchWords?_singleton_append hlong ns
    rw [List.cons_append] at hmore ⊢
    rcases findKeywordFrom_cons h with ⟨rest, htop, rfl, hmatch, rfl, rfl⟩ | ⟨hnone, hrest⟩
    · rw [hmatch] at hmore
      simp only [findKeywordFrom, htop, hmore, Bool.not_false, Bool.and_self, if_true,
        Option.map_some, List.length_cons, List.length_append]
      congr 2
      omega
    · have hskip : (if m.isTop && !afterWord then matchWords? [word] (m :: (ms ++ ns)) else none) =
          none := by
        split_ifs at hnone ⊢
        · rw [hmore, hnone, Option.map_none]
        · rfl
      rw [findKeywordFrom, hskip]
      rw [List.length_cons] at hstop
      exact ih hrest (by omega)

/-- A keyword that is found before the end of a text is found there whatever follows the text. -/
theorem findKeyword_append (h : findKeyword [word] cs = some (start, stop))
    (hstop : stop < cs.length) (ds : List Char) :
    findKeyword [word] (cs ++ ds) = some (start, stop) := by
  rw [findKeyword, mark, markFrom_append]
  refine findKeywordFrom_append h ?_ _
  rwa [Nat.zero_add, mark, length_markFrom]

/-! ## Texts without a keyword -/

theorem matchWords?_of_ne {w : Char} {m : Marked} (h : m.1.toLower ≠ w) :
    matchWords? ((w :: word) :: words) (m :: ms) = none := by
  have hword : matchWord? (w :: word) (m :: ms) = none := by
    rw [matchWord?, if_neg (fun both => h both.1)]
  cases words with
  | nil => rw [matchWords?, hword]; rfl
  | cons next words => rw [matchWords?, hword]; rfl; simp

/-- A text that starts with another letter has a keyword only behind that letter. -/
theorem pos_start_of_findKeyword {w c : Char} (hc : c.toLower ≠ w)
    (h : findKeyword ((w :: word) :: words) (c :: cs) = some (start, stop)) : 0 < start := by
  rw [findKeyword, mark, markFrom] at h
  rcases findKeywordFrom_cons h with ⟨rest, _, _, hmatch, _⟩ | ⟨_, hrest⟩
  · rw [matchWords?_of_ne hc] at hmatch
    exact absurd hmatch (by simp)
  · exact le_start_of_findKeywordFrom hrest

end

end RecordShelf.Sql

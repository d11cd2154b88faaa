import RecordShelf.Proofs.Sql.ByteScans
import RecordShelf.Proofs.Sql.Terms

/-!
# Strings under a scan

A string is read with a doubled quote or a backslash for each quote in it. A scan knows no doubled
quotes: it leaves the string at the first of the two and comes back to it at the second. Still both
end the string at the same place, so a search for keywords, separators or placeholders passes over
it as a whole and goes on right behind it.
-/

namespace RecordShelf.Sql
open Text

/-! ## Walls -/

/-- A marked character that no keyword, separator or placeholder can contain. -/
structure Wall (m : Marked) : Prop where
  quoted : m.isQuoted = true
  word : isAsciiWord m.1 = false
  blank : isAsciiBlank m.1 = false
  colon : m.1 ≠ ':'

theorem Wall.top {m : Marked} (hm : Wall m) : m.isTop = false := by
  obtain ⟨c, mark⟩ := m
  obtain rfl : mark = .quoted := beq_iff_eq.1 hm.quoted
  rfl

theorem wall_quote {q : Char} (hq : q = '\'' ∨ q = '"') : Wall (q, .quoted) := by
  rcases hq with rfl | rfl <;> exact ⟨rfl, by decide, by decide, by decide⟩

section
variable {m : Marked} {ms ns : List Marked} {word : List Char} {words : List (List Char)} {sep : Char}

theorem matchWord?_wall (hm : Wall m) :
    matchWord? word (ms ++ m :: ns) = (matchWord? word ms).map (· ++ m :: ns) := by
  induction word generalizing ms with
  | nil => rfl
  | cons w word ih =>
    cases ms with
    | nil => rw [List.nil_append, matchWord?, matchWord?, if_neg (by simp [hm.top])]; rfl
    | cons m' ms =>
      rw [List.cons_append, matchWord?, matchWord?, ih]
      split_ifs <;> rfl

theorem matchGap?_wall (hm : Wall m) :
    matchGap? (ms ++ m :: ns) = (matchGap? ms).map (· ++ m :: ns) := by
  cases ms with
  | nil => rw [List.nil_append, matchGap?, hm.blank]; rfl
  | cons m' ms =>
    have hstop : (m :: ns).dropWhile (fun m => isAsciiBlank m.1) = m :: ns :=
      List.dropWhile_cons_of_neg (by simp [hm.blank])
    rw [List.cons_append, matchGap?, matchGap?, List.dropWhile_append, hstop]
    split_ifs with hblank hempty
    · rw [List.isEmpty_iff.1 hempty]; rfl
    · rfl
    · rfl

theorem startsWord_wall (hm : Wall m) : startsWord (ms ++ m :: ns) = startsWord ms := by
  cases ms with
  | nil => exact hm.word
  | cons m' ms => rfl

theorem matchWords?_wall (hm : Wall m) :
    matchWords? words (ms ++ m :: ns) = (matchWords? words ms).map (· ++ m :: ns) :=
  matchWords?_comm (fun _ _ _ => matchWord?_wall hm) (fun _ => matchGap?_wall hm)
    (fun _ => startsWord_wall hm) ms

/-- A search before a wall does not look past it, and behind it starts afresh. -/
theorem findKeywordFrom_wall (hm : Wall m) (position : ℕ) (afterWord : Bool) :
    findKeywordFrom words position afterWord (ms ++ m :: ns) =
      (findKeywordFrom words position afterWord ms).or
        (findKeywordFrom words (position + ms.length + 1) false ns) := by
  induction ms generalizing position afterWord with
  | nil =>
    rw [List.nil_append, findKeywordFrom, findKeywordFrom, hm.top, hm.word]
    rfl
  | cons m' ms ih =>
    have hmatch : matchWords? words (m' :: (ms ++ m :: ns)) =
        (matchWords? words (m' :: ms)).map (· ++ m :: ns) := by
      rw [← List.cons_append, matchWords?_wall hm]
    have hlater : findKeywordFrom words (position + 1) (isAsciiWord m'.1) (ms ++ m :: ns) =
        (findKeywordFrom words (position + 1) (isAsciiWord m'.1) ms).or
          (findKeywordFrom words (position + (m' :: ms).length + 1) false ns) := by
      rw [ih, List.length_cons, Nat.add_assoc position, Nat.add_comm 1]
    rw [List.cons_append, findKeywordFrom, findKeywordFrom, hmatch, hlater]
    by_cases hhere : (m'.isTop && !afterWord) = true
    · rw [if_pos hhere, if_pos hhere]
      cases matchWords? words (m' :: ms) with
      | none => rfl
      | some rest =>
        simp only [Option.map_some, List.length_cons, List.length_append, Option.some_or]
        congr 2
        omega
    · rw [if_neg hhere, if_neg hhere]

/-! ## Separators and placeholders -/

/-- Where two texts meet, the last piece of one and the first of the other become one piece. -/
theorem cutAt_join {front pieces : List (List Char)} {last piece : List Char}
    (hms : cutAt sep ms = front ++ [last]) (hns : cutAt sep ns = piece :: pieces) :
    cutAt sep (ms ++ ns) = front ++ (last ++ piece) :: pieces := by
  induction ms generalizing front last with
  | nil =>
    rw [cutAt] at hms
    cases front with
    | nil =>
      obtain rfl := List.singleton_inj.1 hms
      exact hns
    | cons first front => exact absurd hms (by simp)
  | cons m ms ih =>
    by_cases hcut : m.1 = sep ∧ m.isTop = true
    · rw [cutAt_separator hcut.1 hcut.2] at hms
      cases front with
      | nil => exact absurd (List.cons.inj hms).2 (cutAt_ne_nil sep ms)
      | cons first front =>
        obtain ⟨rfl, hrest⟩ := List.cons.inj hms
        rw [List.cons_append, cutAt_separator hcut.1 hcut.2, ih hrest]
        rfl
    · obtain ⟨first, others, hfirst⟩ := List.exists_cons_of_ne_nil (cutAt_ne_nil sep ms)
      rw [cutAt_plain hcut hfirst] at hms
      cases front with
      | nil =>
        obtain ⟨rfl, rfl⟩ := List.cons.inj hms
        have hrest : cutAt sep (ms ++ ns) = [] ++ (first ++ piece) :: pieces := ih hfirst
        exact cutAt_plain hcut hrest
      | cons next front =>
        obtain ⟨rfl, rfl⟩ := List.cons.inj hms
        have hrest : cutAt sep (ms ++ ns) = (first :: front) ++ (last ++ piece) :: pieces := ih hfirst
        exact cutAt_plain hcut hrest

theorem placeholderName?_wall (hm : Wall m) :
    placeholderName? ((ms ++ m :: ns).map (·.1)) = placeholderName? (ms.map (·.1)) := by
  have htake : ((ms ++ m :: ns).map (·.1)).takeWhile isAsciiWord =
      (ms.map (·.1)).takeWhile isAsciiWord := by
    induction ms with
    | nil => exact List.takeWhile_cons_of_neg (by simp [hm.word])
    | cons m' ms ih =>
      rw [List.cons_append, List.map_cons, List.map_cons, List.takeWhile_cons, List.takeWhile_cons, ih]
  rw [placeholderName?, htake, placeholderName?]

/-- Behind a wall the placeholders are those of a text that starts there. -/
theorem placeholdersFrom_wall (hm : Wall m) (before : Option Char) :
    placeholdersFrom before (ms ++ m :: ns) =
      placeholdersFrom before ms ++ placeholdersFrom none ns := by
  induction ms generalizing before with
  | nil =>
    have hafter : placeholdersFrom (some m.1) ns = placeholdersFrom none ns := by
      cases ns with
      | nil => rfl
      | cons n ns => simp [placeholdersFrom, hm.word, hm.colon]
    rw [List.nil_append, placeholdersFrom, placeholdersFrom, hm.quoted, hafter]
    rfl
  | cons m' ms ih =>
    rw [List.cons_append, placeholdersFrom, placeholdersFrom, ih, placeholderName?_wall hm,
      List.append_assoc]

end

theorem placeholdersFrom_quoted (before : Option Char) (cs : List Char) :
    placeholdersFrom before (cs.map (·, Mark.quoted)) = [] := by
  induction cs generalizing before with
  | nil => rfl
  | cons c cs ih =>
    have hquoted : Marked.isQuoted (c, Mark.quoted) = true := rfl
    rw [List.map_cons, placeholdersFrom, hquoted, ih]
    rfl

/-! ## Strings -/

/-- A part of a text that a scan goes through as a whole. It is quoted from end to end, and the rest
is marked as if the scan had not met it. A keyword is searched for before it and then behind it, a
separator cuts before it and behind it, and placeholders stand before it and behind it. -/
structure Skipped (before lit rest : List Char) : Prop where
  marks : mark (before ++ (lit ++ rest)) = mark before ++
    (lit.map (·, Mark.quoted) ++ markFrom (ScanState.run .start before) rest)
  keyword : ∀ words, findKeyword words (before ++ (lit ++ rest)) = (findKeyword words before).or
    (findKeywordFrom words (before ++ lit).length false (markFrom (ScanState.run .start before) rest))
  separator : ∀ sep, ∃ front last piece pieces, cutAt sep (mark before) = front ++ [last] ∧
    cutAt sep (markFrom (ScanState.run .start before) rest) = piece :: pieces ∧
    splitTopLevel sep (before ++ (lit ++ rest)) =
      (front ++ (last ++ (lit ++ piece)) :: pieces).map trim
  placeholders : placeholders (before ++ (lit ++ rest)) = placeholders before ++
    placeholdersFrom none (markFrom (ScanState.run .start before) rest)

section
variable {q : Char} {w before rest : List Char}

theorem skipped_of_enclosed (hq : q = '\'' ∨ q = '"') (hw : Enclosed q w)
    (hbefore : (ScanState.run .start before).quote = none) (rest : List Char) :
    Skipped before (q :: (w ++ [q])) rest := by
  have hsane : (ScanState.run .start before).Sane := ScanState.sane_start.run before
  obtain ⟨depth, hrun⟩ : ∃ depth, ScanState.run .start before = ⟨none, false, depth⟩ := by
    have hescaped := hsane hbefore
    generalize ScanState.run .start before = st at hbefore hescaped ⊢
    obtain ⟨quote, escaped, depth⟩ := st
    obtain rfl : quote = none := hbefore
    obtain rfl : escaped = false := hescaped
    exact ⟨depth, rfl⟩
  have hwall := wall_quote hq
  have hmarks : mark (before ++ (q :: (w ++ [q]) ++ rest)) = mark before ++
      ((q :: (w ++ [q])).map (·, Mark.quoted) ++ markFrom (ScanState.run .start before) rest) := by
    rw [mark, markFrom_append, hrun, markFrom_enclosed (hq.imp_right Or.inl) hw]
    rfl
  refine ⟨hmarks, fun words => ?_, fun sep => ?_, ?_⟩
  · have hlength : 0 + (mark before).length + 1 + (w ++ [q]).length =
        (before ++ q :: (w ++ [q])).length := by
      simp only [mark, length_markFrom, List.length_append, List.length_cons]
      omega
    rw [findKeyword, hmarks, List.map_cons, List.cons_append, findKeywordFrom_wall hwall,
      findKeywordFrom_quoted, hlength, hwall.word]
    rfl
  · obtain ⟨front, last, hfront⟩ : ∃ front last, cutAt sep (mark before) = front ++ [last] :=
      ⟨_, _, (List.dropLast_concat_getLast (cutAt_ne_nil sep _)).symm⟩
    obtain ⟨piece, pieces, hpieces⟩ := List.exists_cons_of_ne_nil
      (cutAt_ne_nil sep (markFrom (ScanState.run .start before) rest))
    have hlit : cutAt sep ((q :: (w ++ [q])).map (·, Mark.quoted) ++
        markFrom (ScanState.run .start before) rest) = (q :: (w ++ [q]) ++ piece) :: pieces := by
      rw [cutAt_append (fun m hm htop => ?_) hpieces, List.map_map, Function.comp_def, List.map_id']
      obtain ⟨c, -, rfl⟩ := List.mem_map.1 hm
      exact absurd htop (by simp [Marked.isTop])
    exact ⟨front, last, piece, pieces, hfront, hpieces, by
      rw [splitTopLevel, hmarks, cutAt_join hfront hlit]⟩
  · rw [placeholders, hmarks, List.map_cons, List.cons_append, placeholdersFrom_wall hwall,
      List.map_append, List.append_assoc, List.map_singleton, List.singleton_append,
      placeholdersFrom_wall hwall, placeholdersFrom_quoted]
    rfl

/-- The bytes of what is in quotes are in quotes. -/
theorem Enclosed.bytes (hq : q = '\'' ∨ q = '"') (hw : Enclosed q w) : Enclosed q (Sql.bytes w) := by
  have hknown : ∀ depth, ScanState.Known ⟨some q, false, depth⟩ := fun depth other hother => by
    obtain rfl := Option.some.inj hother
    exact hq.imp_right Or.inl
  constructor
  · intro depth
    rw [markFrom_bytes (hknown depth), hw.marks, inBytes_map]
  · intro depth
    rw [run_bytes (hknown depth), hw.run]

/-- What reads as a string is skipped as a whole, in the text and in its bytes: behind any text that
ends outside quotes the scan goes on where the reader leaves off. -/
theorem skipped_of_string {cs rest : List Char} {s : String}
    (h : Reader.string cs = .ok (s, rest)) :
    ∃ lit, cs = lit ++ rest ∧
      mark (bytes cs) = (bytes lit).map (·, Mark.quoted) ++ mark (bytes rest) ∧
      ∀ before, (ScanState.run .start before).quote = none →
        Skipped before lit rest ∧ Skipped (bytes before) (bytes lit) (bytes rest) := by
  obtain ⟨q, hq, hread⟩ : ∃ q, (q = '\'' ∨ q = '"') ∧ Reader.quotedBy q cs = .ok (s, rest) := by
    rcases Reader.either_ok h with hread | hread
    · exact ⟨_, .inl rfl, hread⟩
    · exact ⟨_, .inr rfl, hread⟩
  obtain ⟨w, rfl, hw⟩ := Reader.quotedBy_ok hq hread
  have hnarrow : ¬Wide q := by rcases hq with rfl | rfl <;> decide
  have hlit : bytes (q :: (w ++ [q])) = q :: (bytes w ++ [q]) := by
    rw [bytes_cons, bytes_append, bytes_cons, bytes_nil, byteChars_of_not_wide hnarrow]
    rfl
  have hskipped : ∀ before, (ScanState.run .start before).quote = none →
      Skipped before (q :: (w ++ [q])) rest ∧
        Skipped (bytes before) (bytes (q :: (w ++ [q]))) (bytes rest) := by
    intro before hbefore
    have hbytes : (ScanState.run .start (bytes before)).quote = none := by
      rwa [run_bytes ScanState.known_start]
    rw [hlit]
    exact ⟨skipped_of_enclosed hq hw hbefore rest,
      skipped_of_enclosed hq (hw.bytes hq) hbytes (bytes rest)⟩
  have hsplit : q :: (w ++ q :: rest) = q :: (w ++ [q]) ++ rest := by
    rw [List.cons_append, List.append_assoc, List.singleton_append]
  refine ⟨q :: (w ++ [q]), hsplit, ?_, hskipped⟩
  have hmarks := (hskipped [] rfl).2.marks
  rwa [bytes_nil, List.nil_append, ← bytes_append, ← hsplit] at hmarks

theorem skipped_of_string_doubled_quote :
    Reader.string "'it''s \\é, and (' and b".toList = .ok ("it's é, and (", " and b".toList) ∧
    (ScanState.run .start "f(a = ".toList).quote = none ∧
    ∃ lit, "'it''s \\é, and (' and b".toList = lit ++ " and b".toList ∧
      Skipped (bytes "f(a = ".toList) (bytes lit) (bytes " and b".toList) := by
  have hread : Reader.string "'it''s \\é, and (' and b".toList =
      .ok ("it's é, and (", " and b".toList) := by rfl
  have hcode : (ScanState.run .start "f(a = ".toList).quote = none := by decide
  obtain ⟨lit, hsplit, -, hskipped⟩ := skipped_of_string hread
  exact ⟨hread, hcode, lit, hsplit, (hskipped _ hcode).2⟩

end

end RecordShelf.Sql

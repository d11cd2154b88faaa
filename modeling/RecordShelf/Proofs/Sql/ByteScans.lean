import RecordShelf.Proofs.Sql.Bytes
import RecordShelf.Proofs.Sql.Joined

/-!
# Scans of bytes

What is found in the bytes of a text, keywords, separators or placeholders, stands there where the
bytes of what is found in the text start and end.
-/

namespace RecordShelf.Sql
open Text

/-! ## Keywords in bytes -/

section
variable {m : Marked} {ms : List Marked} {word : List Char} {words : List (List Char)}

theorem matchWord?_inBytes (hword : word.all Char.isAlpha = true) (ms : List Marked) :
    matchWord? word (inBytes ms) = (matchWord? word ms).map inBytes := by
  induction word generalizing ms with
  | nil => rfl
  | cons w word ih =>
    obtain ⟨hw, hword⟩ := Bool.and_eq_true_iff.1 (List.all_cons.symm.trans hword)
    cases ms with
    | nil => rfl
    | cons m ms =>
      by_cases hm : Wide m.1
      · obtain ⟨d, ds, -, hds, hbytes⟩ := inBytes_cons_wide hm ms
        have hd := (hds d List.mem_cons_self).toLower_ne hw
        rw [hbytes, List.map_cons, List.cons_append, matchWord?, matchWord?,
          if_neg fun both => hd both.1, if_neg fun both => hm.toLower_ne hw both.1]
        rfl
      · rw [inBytes_cons_narrow hm, matchWord?, matchWord?, ih hword]
        split_ifs <;> rfl

/-- A run of ASCII characters ends in the bytes where it ends in the text. -/
theorem dropWhile_inBytes {p : Char → Bool} (hp : ∀ d, Wide d → p d = false) (ms : List Marked) :
    (inBytes ms).dropWhile (fun m => p m.1) = inBytes (ms.dropWhile fun m => p m.1) := by
  induction ms with
  | nil => rfl
  | cons m ms ih =>
    by_cases hm : Wide m.1
    · obtain ⟨d, ds, -, hds, hbytes⟩ := inBytes_cons_wide hm ms
      rw [List.dropWhile_cons_of_neg (by simp [hp m.1 hm]), hbytes, List.map_cons, List.cons_append,
        List.dropWhile_cons_of_neg (by simp [hp d (hds d List.mem_cons_self)])]
    · rw [inBytes_cons_narrow hm]
      cases hkept : p m.1 with
      | false =>
        rw [List.dropWhile_cons_of_neg (by simp [hkept]), List.dropWhile_cons_of_neg (by simp [hkept]),
          inBytes_cons_narrow hm]
      | true =>
        rw [List.dropWhile_cons_of_pos (by simp [hkept]), List.dropWhile_cons_of_pos (by simp [hkept]),
          ih]

theorem matchGap?_inBytes (ms : List Marked) :
    matchGap? (inBytes ms) = (matchGap? ms).map inBytes := by
  cases ms with
  | nil => rfl
  | cons m ms =>
    by_cases hm : Wide m.1
    · obtain ⟨d, ds, -, hds, hbytes⟩ := inBytes_cons_wide hm ms
      simp [hbytes, matchGap?, hm.isAsciiBlank, (hds d List.mem_cons_self).isAsciiBlank]
    · rw [inBytes_cons_narrow hm, matchGap?, matchGap?,
        dropWhile_inBytes fun _ hd => hd.isAsciiBlank]
      split_ifs <;> rfl

theorem startsWord_inBytes (ms : List Marked) : startsWord (inBytes ms) = startsWord ms := by
  cases ms with
  | nil => rfl
  | cons m ms =>
    by_cases hm : Wide m.1
    · obtain ⟨d, ds, -, hds, hbytes⟩ := inBytes_cons_wide hm ms
      simp [hbytes, startsWord, hm.isAsciiWord, (hds d List.mem_cons_self).isAsciiWord]
    · rw [inBytes_cons_narrow hm, startsWord, startsWord]

theorem matchWords?_inBytes (hwords : words.all (·.all Char.isAlpha) = true) (ms : List Marked) :
    matchWords? words (inBytes ms) = (matchWords? words ms).map inBytes :=
  matchWords?_comm (fun word hword => matchWord?_inBytes (List.all_eq_true.1 hwords word hword))
    matchGap?_inBytes startsWord_inBytes ms

theorem findKeywordFrom_pass_all {w : Char} {more : List (List Char)} (hw : w.isAlpha = true)
    {ds : List Char} (hne : ds ≠ []) (hds : ∀ d ∈ ds, isAsciiWord d = false) (f : Mark)
    (position : ℕ) (afterWord : Bool) (ms : List Marked) :
    findKeywordFrom ((w :: word) :: more) position afterWord (ds.map (·, f) ++ ms) =
      findKeywordFrom ((w :: word) :: more) (position + ds.length) false ms := by
  induction ds generalizing position afterWord with
  | nil => exact absurd rfl hne
  | cons d ds ih =>
    obtain ⟨hd, hds⟩ := List.forall_mem_cons.1 hds
    rw [List.map_cons, List.cons_append, findKeywordFrom_pass hw hd]
    cases ds with
    | nil => rfl
    | cons e ds =>
      rw [ih (List.cons_ne_nil e ds) hds, Nat.add_assoc, Nat.add_comm 1]
      rfl

theorem length_inBytes_take_cons (m : Marked) (ms : List Marked) (n : ℕ) :
    (byteChars m.1).length + (inBytes (ms.take n)).length =
      (inBytes ((m :: ms).take (1 + n))).length := by
  rw [Nat.add_comm 1, List.take_succ_cons, inBytes_cons, List.length_append, List.length_map]

/-- What is found in the bytes starts and stops where the bytes of what is found in the text do. -/
theorem findKeywordFrom_inBytes (hwords : Keyword words) (position : ℕ) (afterWord : Bool)
    (ms : List Marked) : findKeywordFrom words position afterWord (inBytes ms) =
      (findKeywordFrom words 0 afterWord ms).map fun range =>
        (position + (inBytes (ms.take range.1)).length,
          position + (inBytes (ms.take range.2)).length) := by
  obtain ⟨w, word, more, rfl, hw⟩ := hwords.exists_cons
  induction ms generalizing position afterWord with
  | nil => rfl
  | cons m ms ih =>
    have hnext : ∀ afterWord, findKeywordFrom ((w :: word) :: more)
        (position + (byteChars m.1).length) afterWord (inBytes ms) =
          (findKeywordFrom ((w :: word) :: more) (0 + 1) afterWord ms).map fun range =>
            (position + (inBytes ((m :: ms).take range.1)).length,
              position + (inBytes ((m :: ms).take range.2)).length) := by
      intro afterWord
      have hshift := findKeywordFrom_add ((w :: word) :: more) 1 0 afterWord ms
      rw [ih, Nat.zero_add, hshift, Option.map_map]
      simp only [Function.comp_def, Nat.add_assoc, length_inBytes_take_cons]
    by_cases hm : Wide m.1
    · obtain ⟨d, ds, hchars, hds, hbytes⟩ := inBytes_cons_wide hm ms
      rw [hbytes, findKeywordFrom_pass_all hw (List.cons_ne_nil d ds) fun e he =>
        (hds e he).isAsciiWord, findKeywordFrom_pass hw hm.isAsciiWord, ← hchars, hnext]
    · have hmatch := matchWords?_inBytes hwords.letters (m :: ms)
      have hone : (byteChars m.1).length = 1 := by rw [byteChars_of_not_wide hm]; rfl
      rw [hone] at hnext
      rw [inBytes_cons_narrow hm] at hmatch ⊢
      rw [findKeywordFrom, findKeywordFrom, hmatch]
      cases hfound : matchWords? ((w :: word) :: more) (m :: ms) with
      | none =>
        simp only [Option.map_none, ite_self]
        exact hnext _
      | some rest =>
        by_cases htop : (m.isTop && !afterWord) = true
        · obtain ⟨front, hfront⟩ := suffix_of_matchWords? hfound
          have hsplit : (m :: inBytes ms).length = (inBytes front).length + (inBytes rest).length := by
            rw [← inBytes_cons_narrow hm, ← hfront, inBytes_append, List.length_append]
          have htake : (m :: ms).take ((m :: ms).length - rest.length) = front := by
            rw [← hfront, List.length_append, Nat.add_sub_cancel_right, List.take_left]
          simp only [htop, if_true, Option.map_some, hsplit, Nat.zero_add, htake, List.take_zero,
            inBytes_nil, List.length_nil, Nat.add_zero, Nat.add_sub_cancel_right]
        · simp only [htop, Option.map_some]
          exact hnext _

/-- A search of the bytes finds what a search of the text finds. -/
theorem findKeyword_bytes (hwords : Keyword words) (cs : List Char) :
    findKeyword words (bytes cs) = (findKeyword words cs).map fun range =>
      (byteOffset cs range.1, byteOffset cs range.2) := by
  rw [findKeyword, mark_bytes, findKeywordFrom_inBytes hwords]
  simp only [length_inBytes_take, Nat.zero_add]
  rfl

end

/-! ## Separators in bytes -/

theorem cutAt_wides {sep : Char} (hsep : ¬Wide sep) {ds : List Char} (hds : ∀ d ∈ ds, Wide d)
    (f : Mark) {ms : List Marked} {piece : List Char} {pieces : List (List Char)}
    (hms : cutAt sep ms = piece :: pieces) :
    cutAt sep (ds.map (·, f) ++ ms) = (ds ++ piece) :: pieces := by
  rw [cutAt_append (fun m hm _ => ?_) hms, List.map_map, Function.comp_def, List.map_id']
  · obtain ⟨d, hd, rfl⟩ := List.mem_map.1 hm
    rintro rfl
    exact hsep (hds _ hd)

/-- The bytes are cut where the text is cut. -/
theorem cutAt_inBytes {sep : Char} (hsep : ¬Wide sep) (ms : List Marked) :
    cutAt sep (inBytes ms) = (cutAt sep ms).map bytes := by
  induction ms with
  | nil => rw [inBytes_nil, cutAt, List.map_singleton, bytes_nil]
  | cons m ms ih =>
    obtain ⟨piece, pieces, hpieces⟩ := List.exists_cons_of_ne_nil (cutAt_ne_nil sep ms)
    rw [hpieces, List.map_cons] at ih
    by_cases hm : Wide m.1
    · obtain ⟨d, ds, hchars, hds, hbytes⟩ := inBytes_cons_wide hm ms
      have hne : ¬(m.1 = sep ∧ m.isTop = true) := fun both => hsep (both.1 ▸ hm)
      rw [hbytes, cutAt_wides hsep hds m.2 ih, cutAt_plain hne hpieces, List.map_cons, bytes_cons,
        hchars]
    · rw [inBytes_cons_narrow hm]
      by_cases hcut : m.1 = sep ∧ m.isTop = true
      · rw [cutAt_separator hcut.1 hcut.2, cutAt_separator hcut.1 hcut.2, ih, hpieces,
          List.map_cons, List.map_cons, bytes_nil]
      · rw [cutAt_plain hcut ih, cutAt_plain hcut hpieces, List.map_cons, bytes_cons,
          byteChars_of_not_wide hm, List.singleton_append]

/-! ## Placeholders in bytes -/

theorem takeWhile_bytes {p : Char → Bool} (hp : ∀ d, Wide d → p d = false) (cs : List Char) :
    (bytes cs).takeWhile p = cs.takeWhile p := by
  induction cs with
  | nil => rw [bytes_nil]
  | cons c cs ih =>
    rw [bytes_cons]
    by_cases hc : Wide c
    · obtain ⟨d, ds, hchars⟩ := List.exists_cons_of_ne_nil (byteChars_ne_nil c)
      have hd : Wide d := wide_of_mem_byteChars hc d (hchars ▸ List.mem_cons_self)
      rw [hchars, List.cons_append, List.takeWhile_cons_of_neg (by simp [hp d hd]),
        List.takeWhile_cons_of_neg (by simp [hp c hc])]
    · rw [byteChars_of_not_wide hc, List.singleton_append, List.takeWhile_cons, List.takeWhile_cons, ih]

theorem placeholderName?_bytes (cs : List Char) :
    placeholderName? (bytes cs) = placeholderName? cs := by
  rw [placeholderName?, placeholderName?, takeWhile_bytes fun _ hd => hd.isAsciiWord]

theorem placeholdersFrom_wides {ds : List Char} (hne : ds ≠ []) (hds : ∀ d ∈ ds, Wide d) (f : Mark)
    (before : Option Char) (ms : List Marked) : ∃ e, Wide e ∧
      placeholdersFrom before (ds.map (·, f) ++ ms) = placeholdersFrom (some e) ms := by
  induction ds generalizing before with
  | nil => exact absurd rfl hne
  | cons d ds ih =>
    obtain ⟨hd, hds⟩ := List.forall_mem_cons.1 hds
    have hstep : placeholdersFrom before ((d :: ds).map (·, f) ++ ms) =
        placeholdersFrom (some d) (ds.map (·, f) ++ ms) := by
      rw [List.map_cons, List.cons_append, placeholdersFrom]
      simp [hd.ne (d := '?') (by decide), hd.ne (d := ':') (by decide)]
    cases ds with
    | nil => exact ⟨d, hd, hstep⟩
    | cons c ds =>
      obtain ⟨e, he, hrest⟩ := ih (List.cons_ne_nil c ds) hds (some d)
      exact ⟨e, he, hstep.trans hrest⟩

theorem placeholdersFrom_inBytes {before before' : Option Char}
    (hbefore : before'.any (fun c => isAsciiWord c || c == ':') =
      before.any fun c => isAsciiWord c || c == ':') (ms : List Marked) :
    placeholdersFrom before' (inBytes ms) = placeholdersFrom before ms := by
  induction ms generalizing before before' with
  | nil => rfl
  | cons m ms ih =>
    by_cases hm : Wide m.1
    · obtain ⟨d, ds, -, hds, hbytes⟩ := inBytes_cons_wide hm ms
      obtain ⟨e, he, hrest⟩ := placeholdersFrom_wides (List.cons_ne_nil d ds) hds m.2 before'
        (inBytes ms)
      obtain ⟨c, hc, hchar⟩ := placeholdersFrom_wides (List.cons_ne_nil m.1 [])
        (List.forall_mem_singleton.2 hm) m.2 before ms
      have hplain : ∀ {c : Char}, Wide c → (isAsciiWord c || c == ':') = false := fun hc => by
        simp [hc.isAsciiWord, hc.ne (d := ':') (by decide)]
      calc placeholdersFrom before' (inBytes (m :: ms))
          = placeholdersFrom (some e) (inBytes ms) := by rw [hbytes, hrest]
        _ = placeholdersFrom (some c) ms := ih (by simp only [Option.any_some, hplain he, hplain hc])
        _ = placeholdersFrom before (m :: ms) := hchar.symm
    · rw [inBytes_cons_narrow hm, placeholdersFrom, placeholdersFrom, ih rfl, map_fst_inBytes,
        placeholderName?_bytes, hbefore]

/-- The bytes have the placeholders of the text. -/
theorem placeholders_bytes (cs : List Char) : placeholders (bytes cs) = placeholders cs := by
  rw [placeholders, mark_bytes, placeholdersFrom_inBytes rfl]
  rfl

end RecordShelf.Sql

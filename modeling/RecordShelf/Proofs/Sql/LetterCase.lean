import Mathlib.Data.List.Forall2
import RecordShelf.Proofs.Sql.StandingWords

/-!
# Letter case

Texts that differ in the case of ASCII letters only. Quotes, parentheses, blanks and keywords stand
at the same places in both, so that both are cut at the same places, and names are folded to the same.
-/

namespace RecordShelf.Sql
open Text

/-- The same texts but for the case of letters. -/
def Alike (cs ds : List Char) : Prop := cs.map Char.toLower = ds.map Char.toLower

/-! ## Characters -/

def capitalLetters : List Char := "ABCDEFGHIJKLMNOPQRSTUVWXYZ".toList

theorem mem_capitalLetters {c : Char} (h : c.isUpper = true) : c ∈ capitalLetters := by
  have hall : ∀ n < 91, 65 ≤ n → Char.ofNat n ∈ capitalLetters := by decide
  obtain ⟨hlow, hhigh⟩ := isUpper_iff.1 h
  have hmem := hall c.toNat (by omega) hlow
  rwa [Char.ofNat_toNat] at hmem

/-- What holds of the capital letters, and of characters that stay as they are. -/
theorem forall_of_capitalLetters {P : Char → Prop} (hcapital : ∀ c ∈ capitalLetters, P c)
    (hother : ∀ c : Char, c.toLower = c → P c) (c : Char) : P c := by
  by_cases hupper : c.isUpper = true
  · exact hcapital c (mem_capitalLetters hupper)
  · exact hother c (toLower_of_isUpper_eq_false (by simpa using hupper))

theorem toLower_toLower (c : Char) : c.toLower.toLower = c.toLower :=
  forall_of_capitalLetters (P := fun c => c.toLower.toLower = c.toLower)
    (List.map_inj_left.1 (by decide)) (fun _ h => congrArg Char.toLower h) c

/-- A class of characters that does not tell capitals from small letters. -/
def FoldsCase (p : Char → Bool) : Prop := ∀ c ∈ capitalLetters, p c.toLower = p c

/-- A class of characters that holds no letter. -/
def Letterless (p : Char → Bool) : Prop :=
  ∀ c ∈ capitalLetters, p c = false ∧ p c.toLower = false

section
variable {p : Char → Bool} {c d : Char}

-- By the list of the capitals: a search through all characters would not end.
instance : Decidable (FoldsCase p) := List.decidableBAll _ capitalLetters

instance : Decidable (Letterless p) := List.decidableBAll _ capitalLetters

theorem FoldsCase.toLower (hp : FoldsCase p) (c : Char) : p c.toLower = p c :=
  forall_of_capitalLetters (P := fun c => p c.toLower = p c) hp (fun _ h => congrArg p h) c

theorem FoldsCase.congr (hp : FoldsCase p) (h : c.toLower = d.toLower) : p c = p d := by
  rw [← hp.toLower, h, hp.toLower]

theorem Letterless.folds (hp : Letterless p) : FoldsCase p :=
  fun c hc => (hp c hc).2.trans (hp c hc).1.symm

/-- A character of such a class has no other case. -/
theorem Letterless.toLower_eq (hp : Letterless p) (hc : p c = true) : c.toLower = c :=
  forall_of_capitalLetters (P := fun c => p c = true → c.toLower = c)
    (fun c hmem hc => absurd (hc.symm.trans (hp c hmem).1) (by decide)) (fun _ h _ => h) c hc

theorem Letterless.eq (hp : Letterless p) (h : c.toLower = d.toLower) (hc : p c = true) :
    c = d := by
  have hd : p d = true := hp.folds.congr h ▸ hc
  rw [← hp.toLower_eq hc, h, hp.toLower_eq hd]

/-- A character that is no letter stands for itself. -/
theorem toLower_eq_iff {x : Char} (hx : Letterless (· == x)) (c : Char) :
    c.toLower = x ↔ c = x := by
  have hfold := hx.folds.toLower c
  rw [Bool.eq_iff_iff, beq_iff_eq, beq_iff_eq] at hfold
  exact hfold

theorem eq_iff_of_letterless {x : Char} (hx : Letterless (· == x)) (h : c.toLower = d.toLower) :
    c = x ↔ d = x := by
  rw [← toLower_eq_iff hx, h, toLower_eq_iff hx]

theorem letterless_isWhite : Letterless isWhite := by decide

theorem letterless_isSpacing : Letterless isSpacing := by decide

theorem letterless_isDigit : Letterless Char.isDigit := by decide

theorem folds_isWord : FoldsCase isWord := by decide

theorem folds_isAsciiWord : FoldsCase isAsciiWord := by decide

end

/-! ## Texts -/

namespace Alike
variable {cs ds : List Char} {c d : Char} {p : Char → Bool}

theorem refl (cs : List Char) : Alike cs cs := rfl

theorem length (h : Alike cs ds) : cs.length = ds.length := by
  have hlength := congrArg List.length h
  rwa [List.length_map, List.length_map] at hlength

theorem cons_iff : Alike (c :: cs) (d :: ds) ↔ c.toLower = d.toLower ∧ Alike cs ds :=
  List.cons.injEq .. ▸ Iff.rfl

theorem nil_left (h : Alike [] ds) : ds = [] := List.map_eq_nil_iff.1 h.symm

theorem cons_left (h : Alike (c :: cs) ds) :
    ∃ d ds', ds = d :: ds' ∧ c.toLower = d.toLower ∧ Alike cs ds' := by
  cases ds with
  | nil => exact absurd h.length (by simp)
  | cons d ds => exact ⟨d, ds, rfl, cons_iff.1 h⟩

/-- A character that is no letter stands at the front of both or of none. -/
theorem head?_iff {x : Char} (hx : Letterless (· == x)) (h : Alike cs ds) :
    cs.head? = some x ↔ ds.head? = some x := by
  cases cs with
  | nil => rw [h.nil_left]
  | cons c cs =>
    obtain ⟨d, ds, rfl, hc, -⟩ := h.cons_left
    rw [List.head?_cons, List.head?_cons, Option.some_inj, Option.some_inj]
    exact eq_iff_of_letterless hx hc

theorem isEmpty (h : Alike cs ds) : cs.isEmpty = ds.isEmpty := by
  rw [← List.isEmpty_map, h, List.isEmpty_map]

theorem take (h : Alike cs ds) (n : ℕ) : Alike (cs.take n) (ds.take n) := by
  rw [Alike, List.map_take, List.map_take, h]

theorem drop (h : Alike cs ds) (n : ℕ) : Alike (cs.drop n) (ds.drop n) := by
  rw [Alike, List.map_drop, List.map_drop, h]

theorem reverse (h : Alike cs ds) : Alike cs.reverse ds.reverse := by
  rw [Alike, List.map_reverse, List.map_reverse, h]

theorem map_takeWhile (hp : FoldsCase p) (cs : List Char) :
    (cs.takeWhile p).map Char.toLower = (cs.map Char.toLower).takeWhile p := by
  rw [List.takeWhile_map]
  exact congrArg _ (congrFun (congrArg _ (funext fun c => (hp.toLower c).symm)) cs)

theorem map_dropWhile (hp : FoldsCase p) (cs : List Char) :
    (cs.dropWhile p).map Char.toLower = (cs.map Char.toLower).dropWhile p := by
  rw [List.dropWhile_map]
  exact congrArg _ (congrFun (congrArg _ (funext fun c => (hp.toLower c).symm)) cs)

theorem takeWhile (hp : FoldsCase p) (h : Alike cs ds) :
    Alike (cs.takeWhile p) (ds.takeWhile p) := by
  rw [Alike, map_takeWhile hp, map_takeWhile hp, h]

theorem dropWhile (hp : FoldsCase p) (h : Alike cs ds) :
    Alike (cs.dropWhile p) (ds.dropWhile p) := by
  rw [Alike, map_dropWhile hp, map_dropWhile hp, h]

/-- Without letters there is no difference. -/
theorem eq_of_letterless (hp : Letterless p) (hcs : ∀ c ∈ cs, p c = true)
    (hds : ∀ d ∈ ds, p d = true) (h : Alike cs ds) : cs = ds := by
  have hself : ∀ es : List Char, (∀ e ∈ es, p e = true) → es.map Char.toLower = es :=
    fun es hes => (List.map_congr_left fun e he => hp.toLower_eq (hes e he)).trans (List.map_id es)
  rw [← hself cs hcs, h, hself ds hds]

theorem trimStart (h : Alike cs ds) : Alike (Text.trimStart cs) (Text.trimStart ds) :=
  h.dropWhile letterless_isWhite.folds

theorem trimEnd (h : Alike cs ds) : Alike (Text.trimEnd cs) (Text.trimEnd ds) :=
  (h.reverse.dropWhile letterless_isWhite.folds).reverse

theorem trim (h : Alike cs ds) : Alike (Text.trim cs) (Text.trim ds) := h.trimStart.trimEnd

end Alike

/-! ## Folding -/

theorem lowerChar_toLower (c : Char) : lowerChar c.toLower = lowerChar c :=
  forall_of_capitalLetters (P := fun c => lowerChar c.toLower = lowerChar c)
    (List.map_inj_left.1 (by decide)) (fun _ h => congrArg lowerChar h) c

theorem startsCased_toLower (cs : List Char) :
    startsCased (cs.map Char.toLower) = startsCased cs := by
  have hignored : FoldsCase caseIgnorableRanges.contains := by decide +kernel
  have hcased : FoldsCase casedRanges.contains := by decide +kernel
  rw [startsCased, ← Alike.map_dropWhile hignored, startsCased]
  cases cs.dropWhile caseIgnorableRanges.contains with
  | nil => rfl
  | cons c cs => exact hcased.toLower c

theorem lowerCaseFrom_toLower (before cs : List Char) :
    lowerCaseFrom (before.map Char.toLower) (cs.map Char.toLower) = lowerCaseFrom before cs := by
  induction cs generalizing before with
  | nil => rfl
  | cons c cs ih =>
    have hrest := ih (c :: before)
    rw [List.map_cons] at hrest
    rw [List.map_cons, lowerCaseFrom, lowerCaseFrom, hrest, startsCased_toLower,
      startsCased_toLower, lowerChar_toLower]
    simp only [toLower_eq_iff (x := 'Σ') (by decide), toLower_eq_iff (x := 'İ') (by decide)]

/-- Folding takes the differences away. -/
theorem Alike.lowerCase_eq {cs ds : List Char} (h : Alike cs ds) : lowerCase cs = lowerCase ds := by
  have hlower : ∀ es : List Char, lowerCaseFrom [] (es.map Char.toLower) = lowerCase es :=
    lowerCaseFrom_toLower []
  rw [← hlower, h, hlower]

/-! ## Marks -/

namespace ScanState
variable {st : ScanState} {c d : Char}

/-- A scan does not see the case of a letter. -/
theorem Known.step_toLower (h : st.Known) (c : Char) : st.step c.toLower = st.step c := by
  unfold ScanState.step
  cases hquote : st.quote with
  | none =>
    simp only [toLower_eq_iff (x := '\'') (by decide), toLower_eq_iff (x := '"') (by decide),
      toLower_eq_iff (x := '`') (by decide), toLower_eq_iff (x := '(') (by decide),
      toLower_eq_iff (x := ')') (by decide)]
    split_ifs with hopen
    · rcases hopen with rfl | rfl | rfl <;> rfl
    all_goals rfl
  | some q =>
    have hq : Letterless (· == q) := by
      rcases h q hquote with rfl | rfl | rfl <;> decide
    simp only [toLower_eq_iff hq, toLower_eq_iff (x := '\\') (by decide)]

theorem Known.step_congr (h : st.Known) (hc : c.toLower = d.toLower) : st.step c = st.step d := by
  rw [← h.step_toLower, hc, h.step_toLower]

end ScanState

/-- A marked character in lower case. -/
def Marked.lower (m : Marked) : Marked := (m.1.toLower, m.2)

section
variable {st : ScanState} {cs ds : List Char}

theorem markFrom_toLower (h : st.Known) (cs : List Char) :
    markFrom st (cs.map Char.toLower) = (markFrom st cs).map Marked.lower := by
  induction cs generalizing st with
  | nil => rfl
  | cons c cs ih =>
    rw [List.map_cons, markFrom, h.step_toLower, ih (h.step c)]
    rfl

/-! ## Keywords -/

variable {ms : List Marked}

theorem matchWord?_lower (word : List Char) (ms : List Marked) :
    matchWord? word (ms.map Marked.lower) = (matchWord? word ms).map (·.map Marked.lower) := by
  induction word generalizing ms with
  | nil => rfl
  | cons w word ih =>
    cases ms with
    | nil => rfl
    | cons m ms =>
      rw [List.map_cons, matchWord?, matchWord?, ih]
      have htop : m.lower.isTop = m.isTop := rfl
      have hchar : m.lower.1.toLower = m.1.toLower := toLower_toLower m.1
      rw [hchar, htop]
      split_ifs <;> rfl

theorem matchGap?_lower (ms : List Marked) :
    matchGap? (ms.map Marked.lower) = (matchGap? ms).map (·.map Marked.lower) := by
  have hblank : FoldsCase isAsciiBlank := by decide
  have hfun : (fun m : Marked => isAsciiBlank m.1) ∘ Marked.lower = fun m => isAsciiBlank m.1 :=
    funext fun m => hblank.toLower m.1
  cases ms with
  | nil => rfl
  | cons m ms =>
    rw [List.map_cons, matchGap?, matchGap?, List.dropWhile_map, hfun]
    simp only [Marked.lower, hblank.toLower]
    split_ifs <;> rfl

theorem startsWord_lower (ms : List Marked) : startsWord (ms.map Marked.lower) = startsWord ms := by
  cases ms with
  | nil => rfl
  | cons m ms => exact folds_isAsciiWord.toLower m.1

theorem matchWords?_lower (words : List (List Char)) (ms : List Marked) :
    matchWords? words (ms.map Marked.lower) = (matchWords? words ms).map (·.map Marked.lower) :=
  matchWords?_comm (fun word _ => matchWord?_lower word) matchGap?_lower startsWord_lower ms

theorem findKeywordFrom_lower (words : List (List Char)) (position : ℕ) (afterWord : Bool)
    (ms : List Marked) : findKeywordFrom words position afterWord (ms.map Marked.lower) =
      findKeywordFrom words position afterWord ms := by
  induction ms generalizing position afterWord with
  | nil => rfl
  | cons m ms ih =>
    have hmatch := matchWords?_lower words (m :: ms)
    rw [List.map_cons] at hmatch
    have htop : m.lower.isTop = m.isTop := rfl
    have hword : isAsciiWord m.lower.1 = isAsciiWord m.1 := folds_isAsciiWord.toLower m.1
    rw [List.map_cons, findKeywordFrom, findKeywordFrom, ih, hmatch, htop, hword]
    split_ifs
    · cases matchWords? words (m :: ms) <;> simp
    · rfl

/-- A keyword stands at the same place. -/
theorem Alike.findKeyword_eq (h : Alike cs ds) (words : List (List Char)) :
    findKeyword words cs = findKeyword words ds := by
  have hlower : ∀ es : List Char,
      findKeyword words (es.map Char.toLower) = findKeyword words es := by
    intro es
    rw [findKeyword, mark, markFrom_toLower ScanState.known_start, findKeywordFrom_lower]
    rfl
  rw [← hlower, h, hlower]

theorem Alike.clauseMarks_eq (h : Alike cs ds) : clauseMarks cs = clauseMarks ds := by
  simp only [clauseMarks, h.findKeyword_eq]

/-! ## Separators -/

theorem cutAt_lower {sep : Char} (hsep : Letterless (· == sep)) (ms : List Marked) :
    cutAt sep (ms.map Marked.lower) = (cutAt sep ms).map (·.map Char.toLower) := by
  induction ms with
  | nil => rfl
  | cons m ms ih =>
    have htop : m.lower.isTop = m.isTop := rfl
    have hchar : m.lower.1 = sep ↔ m.1 = sep := toLower_eq_iff hsep m.1
    rw [List.map_cons, cutAt, cutAt, ih, htop]
    cases cutAt sep ms with
    | nil => rfl
    | cons piece pieces =>
      simp only [List.map_cons, hchar]
      split_ifs <;> rfl

/-- A list is cut at the same places. -/
theorem Alike.splitTopLevel {sep : Char} (hsep : Letterless (· == sep)) (h : Alike cs ds) :
    List.Forall₂ Alike (splitTopLevel sep cs) (splitTopLevel sep ds) := by
  have hmark : ∀ es : List Char,
      (cutAt sep (mark es)).map (·.map Char.toLower) = cutAt sep (mark (es.map Char.toLower)) := by
    intro es
    rw [mark, mark, markFrom_toLower ScanState.known_start, cutAt_lower hsep]
  have hpieces : (cutAt sep (mark cs)).map (·.map Char.toLower) =
      (cutAt sep (mark ds)).map (·.map Char.toLower) := by
    rw [hmark, h, hmark]
  have hall : List.Forall₂ Alike (cutAt sep (mark cs)) (cutAt sep (mark ds)) := by
    rw [← List.forall₂_eq_eq_eq, List.forall₂_map_left_iff, List.forall₂_map_right_iff] at hpieces
    exact hpieces
  rw [Sql.splitTopLevel, Sql.splitTopLevel, List.forall₂_map_left_iff, List.forall₂_map_right_iff]
  exact hall.imp fun _ _ => Alike.trim

end

end RecordShelf.Sql

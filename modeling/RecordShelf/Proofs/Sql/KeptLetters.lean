import RecordShelf.Proofs.Sql.PairedReading
import RecordShelf.Proofs.Sql.ScannedPieces

/-!
# Where letter case counts

The case of a letter counts in strings and in the names of placeholders. A name starts behind a
colon that does not stand behind another colon or a word, unless the word is one that the grammar
reads a placeholder directly behind. Texts that differ only in the case of other letters hold the same
placeholders, and a part of them that stands by itself differs from its counterpart in the same way.
-/

namespace RecordShelf.Sql
open Text

/-- The words that the grammar reads a placeholder behind, with blanks between them or without. -/
def leadIns : List (List Char) :=
  ["and", "like", "limit", "offset", "set", "values", "where"].map String.toList

/-- Whether a name can start behind a colon, given what stands before the colon, nearest character
first. -/
def startsName (before : List Char) : Bool :=
  match before.takeWhile isAsciiWord with
  | [] => before.head? != some ':'
  | c :: word => leadIns.contains ((c :: word).reverse.map Char.toLower)

/-- Whether the name of a placeholder goes on behind such a text. -/
def inName (before : List Char) : Bool :=
  match before.dropWhile isWord with
  | ':' :: before => startsName before
  | _ => false

/-- Whether the case of a letter counts at a place. -/
def ScanState.keepsCase (st : ScanState) (before : List Char) : Bool :=
  match st.quote with
  | some q => q == '\'' || q == '"'
  | none => inName before

/-- From here on the texts differ in the case of letters only, and nowhere that it counts. -/
def SameFrom (st : ScanState) : List Char → List Char → List Char → Prop
  | _, [], [] => True
  | before, c :: cs, d :: ds =>
    (if st.keepsCase before then c = d else c.toLower = d.toLower) ∧
      SameFrom (st.step c).2 (c :: before) cs ds
  | _, _, _ => False

instance SameFrom.decidable (st : ScanState) :
    (before cs ds : List Char) → Decidable (SameFrom st before cs ds)
  | _, [], [] => .isTrue trivial
  | before, c :: cs, _ :: ds =>
    have : Decidable (SameFrom (st.step c).2 (c :: before) cs ds) := SameFrom.decidable _ _ cs ds
    inferInstanceAs (Decidable (_ ∧ _))
  | _, [], _ :: _ | _, _ :: _, [] => .isFalse id

/-- The same texts but for the case of letters that stand outside strings and placeholders. -/
abbrev SameText (cs ds : List Char) : Prop := SameFrom .start [] cs ds

section
variable {st st' : ScanState} {before cs ds u v u' v' : List Char}

namespace SameFrom

theorem alike (h : SameFrom st before cs ds) : Alike cs ds := by
  induction cs generalizing st before ds with
  | nil =>
    cases ds with
    | nil => exact Alike.refl []
    | cons d ds => exact h.elim
  | cons c cs ih =>
    cases ds with
    | nil => exact h.elim
    | cons d ds =>
      obtain ⟨hc, hcs⟩ := h
      refine Alike.cons_iff.2 ⟨?_, ih hcs⟩
      split_ifs at hc
      · rw [hc]
      · exact hc

theorem append_iff (hlength : u.length = u'.length) :
    SameFrom st before (u ++ v) (u' ++ v') ↔
      SameFrom st before u u' ∧ SameFrom (st.run u) (u.reverse ++ before) v v' := by
  induction u generalizing st before u' with
  | nil =>
    obtain rfl := List.length_eq_zero_iff.1 hlength.symm
    exact (and_iff_right trivial).symm
  | cons c u ih =>
    cases u' with
    | nil => exact absurd hlength (by simp)
    | cons d u' =>
      have hrest : u.length = u'.length := Nat.succ.inj hlength
      rw [List.cons_append, List.cons_append, SameFrom, SameFrom, ih hrest, and_assoc,
        List.reverse_cons, List.append_assoc]
      rfl

theorem take (h : SameFrom st before cs ds) (n : ℕ) :
    SameFrom st before (cs.take n) (ds.take n) := by
  have hlength : (cs.take n).length = (ds.take n).length := (h.alike.take n).length
  rw [← List.take_append_drop n cs, ← List.take_append_drop n ds, append_iff hlength] at h
  exact h.1

end SameFrom

/-! ## Parentheses -/

/-- Two scans stand alike but for the number of open parentheses. -/
def ScanState.SameQuote (st st' : ScanState) : Prop :=
  st.quote = st'.quote ∧ st.escaped = st'.escaped

theorem ScanState.SameQuote.step (h : st.SameQuote st') (c : Char) :
    (st.step c).2.SameQuote (st'.step c).2 := by
  obtain ⟨quote, escaped, depth⟩ := st
  obtain ⟨quote', escaped', depth'⟩ := st'
  obtain ⟨rfl, rfl⟩ : quote = quote' ∧ escaped = escaped' := h
  unfold ScanState.step
  cases quote with
  | none =>
    dsimp only
    split_ifs <;> exact ⟨rfl, rfl⟩
  | some q =>
    dsimp only
    split_ifs <;> exact ⟨rfl, rfl⟩

theorem ScanState.SameQuote.run (h : st.SameQuote st') (cs : List Char) :
    (st.run cs).SameQuote (st'.run cs) := by
  induction cs generalizing st st' with
  | nil => exact h
  | cons c cs ih => exact ih (h.step c)

/-- Parentheses around a place do not matter. -/
theorem SameFrom.of_sameQuote (hst : st.SameQuote st') (h : SameFrom st before cs ds) :
    SameFrom st' before cs ds := by
  induction cs generalizing st st' before ds with
  | nil =>
    cases ds with
    | nil => exact trivial
    | cons d ds => exact h.elim
  | cons c cs ih =>
    cases ds with
    | nil => exact h.elim
    | cons d ds =>
      obtain ⟨hc, hcs⟩ := h
      have hkeeps : st.keepsCase before = st'.keepsCase before := by
        rw [ScanState.keepsCase, ScanState.keepsCase, hst.1]
      exact ⟨hkeeps ▸ hc, ih (hst.step c) hcs⟩

/-! ## Parts that stand by themselves -/

/-- A word that starts a text does not go on from what stands before it. -/
def Apart (before cs : List Char) : Prop := EndsWord cs ∨ EndsWord before

/-- Behind a text nothing is different from the start of a text. -/
structure Fresh (before cs : List Char) : Prop where
  name : cs.head? = some ':' → startsName before = true
  apart : Apart before cs

theorem startsName_of_takeWhile (hword : before.takeWhile isAsciiWord = [])
    (hcolon : before.head? ≠ some ':') : startsName before = true := by
  rw [startsName, hword]
  simpa using hcolon

theorem endsWord_of_isWord (h : ∀ c ∈ cs.head?, isWord c = false) : EndsWord cs := by
  intro c hc
  rw [Bool.eq_false_iff]
  intro hword
  exact absurd ((isWord_of_isAsciiWord hword).symm.trans (h c hc)) (by decide)

theorem takeWhile_of_endsWord (h : EndsWord cs) : cs.takeWhile isAsciiWord = [] := by
  cases cs with
  | nil => rfl
  | cons c cs => exact List.takeWhile_cons_of_neg (by rw [h c rfl]; decide)

theorem startsName_of_endsWord (hword : EndsWord before) (hcolon : before.head? ≠ some ':') :
    startsName before = true :=
  startsName_of_takeWhile (takeWhile_of_endsWord hword) hcolon

/-- What starts a name by itself starts one behind a text. -/
theorem startsName_append {w : List Char} (hfresh : Fresh before (w.reverse ++ ':' :: cs))
    (h : startsName w = true) : startsName (w ++ before) = true := by
  cases w with
  | nil => exact hfresh.name rfl
  | cons c w =>
    have hword : ((c :: w) ++ before).takeWhile isAsciiWord = (c :: w).takeWhile isAsciiWord := by
      rcases hfresh.apart with hends | hends
      · -- the text starts with no word character, so that the word at the end of it stops in it
        rw [List.takeWhile_append, if_neg]
        intro hall
        have hword := List.takeWhile_eq_self_iff.1
          ((List.takeWhile_prefix isAsciiWord).eq_of_length hall)
        obtain ⟨d, tail, hsplit⟩ := List.exists_cons_of_ne_nil (l := (c :: w).reverse) (by simp)
        have hd : isAsciiWord d = false := hends d (by rw [hsplit]; rfl)
        have hmem : d ∈ c :: w := List.mem_reverse.1 (hsplit ▸ List.mem_cons_self)
        exact absurd (hd.symm.trans (hword d hmem)) (by decide)
      · rw [List.takeWhile_append, takeWhile_of_endsWord hends, List.append_nil]
        split_ifs with hall
        · exact ((List.takeWhile_prefix isAsciiWord).eq_of_length hall).symm
        · rfl
    rw [startsName, hword]
    exact h

theorem inName_append {w : List Char} (hfresh : Fresh before (w.reverse ++ cs))
    (h : inName w = true) : inName (w ++ before) = true := by
  have hsplit : w.takeWhile isWord ++ w.dropWhile isWord = w := List.takeWhile_append_dropWhile
  rw [inName] at h
  split at h
  · rename_i front hdrop
    have hcut : (w ++ before).dropWhile isWord = ':' :: (front ++ before) := by
      rw [List.dropWhile_append, hdrop]
      rfl
    rw [hdrop] at hsplit
    have htext : w.reverse ++ cs =
        front.reverse ++ ':' :: ((w.takeWhile isWord).reverse ++ cs) := by
      rw [← congrArg List.reverse hsplit, List.reverse_append, List.reverse_cons]
      simp only [List.append_assoc, List.cons_append, List.nil_append]
    rw [inName, hcut]
    exact startsName_append (htext ▸ hfresh) h
  · exact absurd h (by decide)

theorem sameFrom_rebase {w : List Char} (hfresh : Fresh before (w.reverse ++ cs))
    (h : SameFrom st (w ++ before) cs ds) : SameFrom st w cs ds := by
  induction cs generalizing st w ds with
  | nil =>
    cases ds with
    | nil => exact trivial
    | cons d ds => exact h.elim
  | cons c cs ih =>
    cases ds with
    | nil => exact h.elim
    | cons d ds =>
      obtain ⟨hc, hcs⟩ := h
      have hkeeps : st.keepsCase w = true → st.keepsCase (w ++ before) = true := by
        rw [ScanState.keepsCase, ScanState.keepsCase]
        cases st.quote with
        | none => exact inName_append hfresh
        | some q => exact id
      have hnext : Fresh before ((c :: w).reverse ++ cs) := by
        rwa [List.reverse_cons, List.append_assoc, List.singleton_append]
      refine ⟨?_, ih hnext hcs⟩
      split_ifs at hc ⊢ with halone hbehind hbehind
      · exact hc
      · exact absurd (hkeeps halone) hbehind
      · rw [hc]
      · exact hc

/-- Behind such a text it is as at the start. -/
theorem SameFrom.rebase (hfresh : Fresh before cs) (h : SameFrom .start before cs ds) :
    SameText cs ds :=
  sameFrom_rebase (w := []) hfresh h

end

/-! ## Names -/

section
variable {st : ScanState} {before cs ds : List Char} {prev prev' : Option Char}

/-- The name of a placeholder is the same in both texts. -/
theorem SameFrom.takeWhile_isWord (hquote : st.quote = none) (hname : inName before = true)
    (h : SameFrom st before cs ds) : cs.takeWhile isWord = ds.takeWhile isWord := by
  induction cs generalizing before ds with
  | nil =>
    cases ds with
    | nil => rfl
    | cons d ds => exact h.elim
  | cons c cs ih =>
    cases ds with
    | nil => exact h.elim
    | cons d ds =>
      obtain ⟨hc, hcs⟩ := h
      have hkeeps : st.keepsCase before = true := by
        rw [ScanState.keepsCase, hquote]
        exact hname
      rw [if_pos hkeeps] at hc
      subst hc
      by_cases hword : isWord c = true
      · have hnext : inName (c :: before) = true := by
          rw [inName, List.dropWhile_cons_of_pos hword]
          exact hname
        rw [ScanState.step_of_calm hquote (calm_of_isWord hword)] at hcs
        rw [List.takeWhile_cons_of_pos hword, List.takeWhile_cons_of_pos hword, ih hnext hcs]
      · rw [List.takeWhile_cons_of_neg hword, List.takeWhile_cons_of_neg hword]

theorem inName_colon (before : List Char) : inName (':' :: before) = startsName before := rfl

/-- So the scanner takes the same name from both. -/
theorem SameFrom.placeholderName?_eq (hquote : st.quote = none) (hname : inName before = true)
    (h : SameFrom st before cs ds) : placeholderName? cs = placeholderName? ds := by
  have hascii : ∀ es : List Char,
      es.takeWhile isAsciiWord = (es.takeWhile isWord).takeWhile isAsciiWord := by
    intro es
    rw [List.takeWhile_takeWhile]
    refine congrArg (fun p => List.takeWhile p es) (funext fun c => ?_)
    rw [Bool.eq_iff_iff, decide_eq_true_iff]
    exact ⟨fun hc => ⟨hc, isWord_of_isAsciiWord hc⟩, And.left⟩
  rw [placeholderName?, placeholderName?, hascii cs, hascii ds, h.takeWhile_isWord hquote hname]

theorem placeholderAt_congr {m : Mark} {c d : Char} (hchar : c.toLower = d.toLower)
    (hprev : prev.any shadows = prev'.any shadows)
    (hname : c = ':' → m ≠ .quoted → prev.any shadows = false →
      placeholderName? cs = placeholderName? ds) :
    placeholderAt prev (c, m) cs = placeholderAt prev' (d, m) ds := by
  have hmark : Marked.isQuoted (d, m) = Marked.isQuoted (c, m) := rfl
  rw [placeholderAt, placeholderAt, hmark, ← hprev]
  simp only [← eq_iff_of_letterless (x := '?') (by decide) hchar,
    ← eq_iff_of_letterless (x := ':') (by decide) hchar]
  split_ifs with hquoted hsign hcolon
  · rfl
  · rfl
  · rw [hname hcolon.1 (fun hm => hquoted (beq_iff_eq.2 hm)) (by simpa using hcolon.2)]
  · rfl

theorem startsIn_same (hst : st.Known) (hprev : prev.any shadows = prev'.any shadows)
    (hname : cs.head? = some ':' → prev.any shadows = false → startsName before = true)
    (h : SameFrom st before cs ds) : startsIn st prev [] cs = startsIn st prev' [] ds := by
  induction cs generalizing st before ds prev prev' with
  | nil =>
    cases ds with
    | nil => rfl
    | cons d ds => exact h.elim
  | cons c cs ih =>
    cases ds with
    | nil => exact h.elim
    | cons d ds =>
      have hchar : c.toLower = d.toLower := (Alike.cons_iff.1 h.alike).1
      have hcs : SameFrom (st.step c).2 (c :: before) cs ds := h.2
      have hhere : placeholderAt prev (c, (st.step c).1) cs =
          placeholderAt prev' (d, (st.step c).1) ds := by
        refine placeholderAt_congr hchar hprev fun hcolon hmark hnot => ?_
        subst hcolon
        have hquote : st.quote = none := by
          cases hquote : st.quote with
          | none => rfl
          | some q => exact absurd (by simp [ScanState.step, hquote]) hmark
        have hstep : (st.step ':').2 = st := by simp [ScanState.step, hquote]
        rw [hstep] at hcs
        exact hcs.placeholderName?_eq hquote ((inName_colon before).trans (hname rfl hnot))
      have hshadows : shadows c = shadows d := FoldsCase.congr (p := shadows) (by decide) hchar
      rw [startsIn, startsIn, List.append_nil, List.append_nil, ← hst.step_congr hchar, hhere]
      refine congrArg _ (ih (hst.step c) hshadows (fun _ hc => ?_) hcs)
      rw [Option.any_some, shadows, Bool.or_eq_false_iff, beq_eq_false_iff_ne] at hc
      exact startsName_of_endsWord (ends_cons hc.1 before) (by simpa using hc.2)

/-- Both texts hold the same placeholders. -/
theorem SameFrom.placeholders_eq (h : SameText cs ds) : placeholders cs = placeholders ds := by
  rw [Sql.placeholders_eq, Sql.placeholders_eq]
  exact startsIn_same ScanState.known_start rfl (fun _ _ => rfl) h

end

end RecordShelf.Sql

import Mathlib.Data.Nat.Notation
import RecordShelf.Proofs.Sql.Reading
import RecordShelf.Sql.Term

/-!
# Quiet text

Placeholders start with a sign: a question mark or a colon. Quiet text holds no sign outside quotes
and leaves a scan as it found it. Names, keywords and literals are quiet, so that among the parts of
an assignment or a condition only a placeholder counts.
-/

namespace RecordShelf.Sql
open Text

def isSign (c : Char) : Bool := c == '?' || c == ':'

/-- How many signs of a text stand outside quotes, for a scan that comes to it in some state. -/
def signsFrom (st : ScanState) (cs : List Char) : ℕ :=
  (markFrom st cs).countP fun m => !m.isQuoted && isSign m.1

/-- The signs of a text that stand outside quotes. -/
def signs (cs : List Char) : ℕ := signsFrom .start cs

namespace ScanState

theorem run_cons (st : ScanState) (c : Char) (cs : List Char) :
    st.run (c :: cs) = (st.step c).2.run cs := rfl

theorem run_append (st : ScanState) (cs ds : List Char) :
    st.run (cs ++ ds) = (st.run cs).run ds := List.foldl_append

end ScanState

theorem signsFrom_cons (st : ScanState) (c : Char) (cs : List Char) :
    signsFrom st (c :: cs) =
      (if (st.step c).1 ≠ .quoted ∧ isSign c = true then 1 else 0) + signsFrom (st.step c).2 cs := by
  rw [signsFrom, markFrom, List.countP_cons, Nat.add_comm, signsFrom]
  simp [Marked.isQuoted]

theorem signsFrom_append (st : ScanState) (cs ds : List Char) :
    signsFrom st (cs ++ ds) = signsFrom st cs + signsFrom (st.run cs) ds := by
  rw [signsFrom, markFrom_append, List.countP_append]
  rfl

/-- Where there is no sign none is counted. -/
theorem signsFrom_eq_zero {cs : List Char} (h : ∀ c ∈ cs, isSign c = false) (st : ScanState) :
    signsFrom st cs = 0 := by
  induction cs generalizing st with
  | nil => rfl
  | cons c cs ih =>
    obtain ⟨hc, hcs⟩ := List.forall_mem_cons.1 h
    rw [signsFrom_cons, ih hcs, if_neg fun both => by simp [hc] at both]

/-- No signs outside quotes, and a scan goes on behind the text as it came to it. -/
structure Quiet (w : List Char) : Prop where
  signs : signs w = 0
  run : ScanState.run .start w = .start

theorem Quiet.nil : Quiet [] := ⟨rfl, rfl⟩

theorem Quiet.append {w v : List Char} (hw : Quiet w) (hv : Quiet v) : Quiet (w ++ v) := by
  constructor
  · rw [Sql.signs, signsFrom_append, hw.run]
    exact Nat.add_eq_zero_iff.2 ⟨hw.signs, hv.signs⟩
  · rw [ScanState.run_append, hw.run, hv.run]

/-! ## Characters in code -/

/-- A character that changes nothing for a scan in code and is no sign. -/
structure Calm (c : Char) : Prop where
  quote : c ≠ '\''
  doubleQuote : c ≠ '"'
  backtick : c ≠ '`'
  opens : c ≠ '('
  closes : c ≠ ')'
  sign : isSign c = false

theorem ScanState.step_of_calm {st : ScanState} {c : Char} (hquote : st.quote = none)
    (hc : Calm c) : st.step c = (.code st.depth, st) := by
  simp [step, hquote, hc.quote, hc.doubleQuote, hc.backtick, hc.opens, hc.closes]

theorem ScanState.run_of_calm {st : ScanState} {cs : List Char} (hquote : st.quote = none)
    (hcs : ∀ c ∈ cs, Calm c) : st.run cs = st := by
  induction cs with
  | nil => rfl
  | cons c cs ih =>
    obtain ⟨hc, hcs⟩ := List.forall_mem_cons.1 hcs
    rw [run_cons, step_of_calm hquote hc, ih hcs]

theorem Quiet.of_calm {w : List Char} (h : ∀ c ∈ w, Calm c) : Quiet w :=
  ⟨signsFrom_eq_zero (fun c hc => (h c hc).sign) _, ScanState.run_of_calm rfl h⟩

/-- Characters of a class that none of the special ones belongs to. -/
theorem calm_of_class {p : Char → Bool}
    (hp : ['\'', '"', '`', '(', ')', '?', ':'].all (fun d => !p d) = true) {c : Char} (hc : p c = true) :
    Calm c := by
  have hne : ∀ d ∈ ['\'', '"', '`', '(', ')', '?', ':'], c ≠ d := by
    rintro d hd rfl
    have hnot := List.all_eq_true.1 hp c hd
    rw [hc] at hnot
    exact absurd hnot (by decide)
  exact ⟨hne _ (by simp), hne _ (by simp), hne _ (by simp), hne _ (by simp), hne _ (by simp),
    by simp [isSign, hne '?' (by simp), hne ':' (by simp)]⟩

theorem calm_of_isWord {c : Char} (hc : isWord c = true) : Calm c :=
  calm_of_class (by decide) hc

theorem calm_of_isDigit {c : Char} (hc : c.isDigit = true) : Calm c :=
  calm_of_class (by decide) hc

theorem calm_of_isSpacing {c : Char} (hc : isSpacing c = true) : Calm c :=
  calm_of_class (by decide) hc

theorem calm_of_isWhite {c : Char} (hc : isWhite c = true) : Calm c :=
  calm_of_class (by decide) hc

/-- A character that stands for a letter whatever its case. -/
theorem calm_of_toLower {c w : Char} (hw : w.isAlpha = true) (hc : c.toLower = w) : Calm c :=
  calm_of_class (p := fun c => c.toLower.isAlpha) (by decide) (by rw [hc]; exact hw)

/-! ## Characters in quotes -/

namespace ScanState
variable {q c : Char}

theorem step_open (hq : q = '\'' ∨ q = '"' ∨ q = '`') (depth : ℕ) :
    step ⟨none, false, depth⟩ q = (.quoted, ⟨some q, false, depth⟩) := by
  rcases hq with rfl | rfl | rfl <;> rfl

theorem step_close (hq : q = '\'' ∨ q = '"' ∨ q = '`') (depth : ℕ) :
    step ⟨some q, false, depth⟩ q = (.quoted, ⟨none, false, depth⟩) := by
  rcases hq with rfl | rfl | rfl <;> rfl

theorem step_backslash (hq : q ≠ '`') (depth : ℕ) :
    step ⟨some q, false, depth⟩ '\\' = (.quoted, ⟨some q, true, depth⟩) := by
  simp [step, hq]

/-- A backslash hides the character behind it, whatever that is. -/
theorem step_escaped (q c : Char) (depth : ℕ) :
    step ⟨some q, true, depth⟩ c = (.quoted, ⟨some q, false, depth⟩) := rfl

theorem step_inside (hc : c ≠ q) (hback : c ≠ '\\') (depth : ℕ) :
    step ⟨some q, false, depth⟩ c = (.quoted, ⟨some q, false, depth⟩) := by
  simp [step, hc, hback]

end ScanState

theorem ne_backtick {q : Char} (hq : q = '\'' ∨ q = '"') : q ≠ '`' := by
  rcases hq with rfl | rfl <;> decide

/-- Text in quotes, however many parentheses are open: all of it is quoted, and the quote goes on
behind it. -/
structure Enclosed (q : Char) (w : List Char) : Prop where
  marks : ∀ depth, markFrom ⟨some q, false, depth⟩ w = w.map (·, Mark.quoted)
  run : ∀ depth, ScanState.run ⟨some q, false, depth⟩ w = ⟨some q, false, depth⟩

theorem Enclosed.nil (q : Char) : Enclosed q [] := ⟨fun _ => rfl, fun _ => rfl⟩

theorem Enclosed.cons {q c : Char} {w : List Char}
    (hstep : ∀ depth, ScanState.step ⟨some q, false, depth⟩ c = (.quoted, ⟨some q, false, depth⟩))
    (hw : Enclosed q w) : Enclosed q (c :: w) := by
  constructor
  · intro depth
    rw [markFrom, hstep, hw.marks]
    rfl
  · intro depth
    rw [ScanState.run_cons, hstep, hw.run]

/-- Two characters that lead out of the quote's usual state and back to it. -/
theorem Enclosed.cons_cons {q c d : Char} {between : ℕ → ScanState} {w : List Char}
    (hc : ∀ depth, ScanState.step ⟨some q, false, depth⟩ c = (.quoted, between depth))
    (hd : ∀ depth, (between depth).step d = (.quoted, ⟨some q, false, depth⟩))
    (hw : Enclosed q w) : Enclosed q (c :: d :: w) := by
  constructor
  · intro depth
    rw [markFrom, hc, markFrom, hd, hw.marks]
    rfl
  · intro depth
    rw [ScanState.run_cons, hc, ScanState.run_cons, hd, hw.run]

/-- A scan in code enters a quote and leaves it where the quote ends. -/
theorem markFrom_enclosed {q : Char} {w : List Char} (hq : q = '\'' ∨ q = '"' ∨ q = '`')
    (hw : Enclosed q w) (depth : ℕ) (rest : List Char) :
    markFrom ⟨none, false, depth⟩ (q :: (w ++ [q]) ++ rest) =
      (q :: (w ++ [q])).map (·, Mark.quoted) ++ markFrom ⟨none, false, depth⟩ rest := by
  have hinside : markFrom ⟨some q, false, depth⟩ (w ++ [q]) = (w ++ [q]).map (·, Mark.quoted) := by
    rw [markFrom_append, hw.marks, hw.run, markFrom, ScanState.step_close hq, List.map_append]
    rfl
  have hbehind : ScanState.run ⟨some q, false, depth⟩ (w ++ [q]) = ⟨none, false, depth⟩ := by
    rw [ScanState.run_append, hw.run, ScanState.run_cons, ScanState.step_close hq]
    rfl
  rw [List.cons_append, markFrom, ScanState.step_open hq, markFrom_append, hinside, hbehind]
  rfl

/-- Inside a quote, outside all parentheses. -/
def ScanState.within (q : Char) : ScanState := ⟨some q, false, 0⟩

/-- Text in quotes: none of it counts, and the quote goes on behind it. -/
structure Inside (q : Char) (w : List Char) : Prop where
  signs : signsFrom (.within q) w = 0
  run : ScanState.run (.within q) w = .within q

theorem Enclosed.inside {q : Char} {w : List Char} (hw : Enclosed q w) : Inside q w := by
  refine ⟨?_, hw.run 0⟩
  rw [signsFrom, ScanState.within, hw.marks, List.countP_map, List.countP_eq_zero]
  exact fun c _ => by simp [Marked.isQuoted]

/-- A quote is quiet from its opening to its closing character. -/
theorem Inside.quiet {q : Char} {w : List Char} (hq : q = '\'' ∨ q = '"' ∨ q = '`')
    (hw : Inside q w) : Quiet (q :: (w ++ [q])) := by
  have hopen : ScanState.start.step q = (.quoted, .within q) := ScanState.step_open hq 0
  have hclose : (ScanState.within q).step q = (.quoted, .start) := ScanState.step_close hq 0
  constructor
  · rw [Sql.signs, signsFrom_cons, hopen, signsFrom_append, hw.signs, hw.run, signsFrom_cons,
      hclose]
    rfl
  · rw [ScanState.run_cons, hopen, ScanState.run_append, hw.run, ScanState.run_cons, hclose]
    rfl

theorem enclosed_of_isWord {name : List Char} (h : ∀ c ∈ name, isWord c = true) :
    Enclosed '`' name := by
  induction name with
  | nil => exact .nil '`'
  | cons c name ih =>
    obtain ⟨hc, hname⟩ := List.forall_mem_cons.1 h
    have hne : c ≠ '`' := (calm_of_isWord hc).backtick
    refine .cons (fun depth => ?_) (ih hname)
    simp [ScanState.step, hne]

/-- The characters of a string stand inside its quotes. -/
theorem enclosed_stringChars {q : Char} (hq : q = '\'' ∨ q = '"') {cs s rest : List Char}
    (h : Reader.stringChars q cs = (s, rest)) : ∃ w, cs = w ++ rest ∧ Enclosed q w := by
  fun_induction Reader.stringChars q cs generalizing s with
  | case1 =>
    cases h
    exact ⟨[], rfl, .nil q⟩
  | case2 c tail chars after hread ih =>
    obtain ⟨-, rfl⟩ := Prod.mk.inj h
    obtain ⟨w, rfl, hw⟩ := ih hread
    exact ⟨'\\' :: c :: w, rfl, hw.cons_cons (ScanState.step_backslash (ne_backtick hq))
      (ScanState.step_escaped q c)⟩
  | case3 tail chars after hread _ ih =>
    -- A doubled quote ends the string for the scan, which opens it again at once.
    obtain ⟨-, rfl⟩ := Prod.mk.inj h
    obtain ⟨w, rfl, hw⟩ := ih hread
    have hquote : q = '\'' ∨ q = '"' ∨ q = '`' := hq.imp_right Or.inl
    exact ⟨q :: q :: w, rfl,
      hw.cons_cons (ScanState.step_close hquote) (ScanState.step_open hquote)⟩
  | case4 d tail _ _ =>
    obtain ⟨-, rfl⟩ := Prod.mk.inj h
    exact ⟨[], rfl, .nil q⟩
  | case5 c d tail hback hc chars after hread ih =>
    obtain ⟨-, rfl⟩ := Prod.mk.inj h
    obtain ⟨w, hsplit, hw⟩ := ih hread
    exact ⟨c :: w, by rw [hsplit]; rfl, .cons (ScanState.step_inside hc hback) hw⟩
  | case6 c _ =>
    obtain ⟨-, rfl⟩ := Prod.mk.inj h
    exact ⟨[], rfl, .nil q⟩
  | case7 c hc =>
    obtain ⟨-, rfl⟩ := Prod.mk.inj h
    rw [not_or] at hc
    exact ⟨[c], rfl, .cons (ScanState.step_inside hc.1 hc.2) (.nil q)⟩

end RecordShelf.Sql

import Mathlib.Algebra.Ring.Nat
import Mathlib.Tactic.SplitIfs
import RecordShelf.Proofs.Sql.Pieces
import RecordShelf.Proofs.Sql.Terms

/-!
# Counting placeholders

The signs before a part are those before the first part and those in the parts between. A part that
the grammar can read has as many as a binder takes for it. Where no placeholder has a name, every
sign is a placeholder.
-/

namespace RecordShelf.Sql
open Text

/-! ## Texts without names -/

section
variable {cs ds : List Char} {p : Piece} {text : List Char}

/-- No colon stands outside quotes, so that no placeholder has a name. -/
def Nameless (cs : List Char) : Prop := ∀ m ∈ mark cs, m.1 = ':' → m.isQuoted = true

/-- Where no placeholder has a name, every sign is one. -/
theorem length_placeholders (h : Nameless cs) : (placeholders cs).length = signs cs := by
  have hlength : ∀ (ms : List Marked) (before : Option Char),
      (∀ m ∈ ms, m.1 = ':' → m.isQuoted = true) →
        (placeholdersFrom before ms).length = ms.countP fun m => !m.isQuoted && isSign m.1 := by
    intro ms
    induction ms with
    | nil => exact fun _ _ => rfl
    | cons m ms ih =>
      intro before hms
      obtain ⟨hm, hms⟩ := List.forall_mem_cons.1 hms
      rw [placeholdersFrom, List.length_append, ih _ hms, List.countP_cons, Nat.add_comm]
      refine congrArg _ ?_
      split_ifs <;> simp_all [isSign]
  exact hlength (mark cs) none h

theorem nameless_of_not_mem (h : ':' ∉ cs) : Nameless cs := by
  intro m hm hcolon
  have hmem : m.1 ∈ cs := by
    have hfirst := List.mem_map_of_mem (f := fun m : Marked => m.1) hm
    rwa [mark, markFrom_map_fst] at hfirst
  exact absurd (hcolon ▸ hmem) h

/-- A text without signs has no placeholders. -/
theorem placeholders_eq_nil (h : ∀ c ∈ cs, isSign c = false) : placeholders cs = [] := by
  have hnameless : Nameless cs := nameless_of_not_mem fun hc => absurd (h ':' hc) (by decide)
  rw [← List.length_eq_zero_iff, length_placeholders hnameless, signs, signsFrom_eq_zero h]

theorem nameless_append (hrun : ScanState.run .start cs = .start) :
    Nameless (cs ++ ds) ↔ Nameless cs ∧ Nameless ds := by
  have hmark : mark (cs ++ ds) = mark cs ++ mark ds := by
    rw [mark, markFrom_append, hrun]
    rfl
  rw [Nameless, hmark, List.forall_mem_append]
  rfl

theorem Piece.Placed.nameless_before (h : p.Placed text) (htext : Nameless text) :
    Nameless p.before := by
  obtain ⟨after, rfl⟩ := h.inside
  exact ((nameless_append h.clean).1 htext).1

theorem Piece.Placed.nameless_body (h : p.Placed text) (htext : Nameless text) :
    Nameless p.body := by
  obtain ⟨after, rfl⟩ := h.inside
  have hbody := ((nameless_append h.clean).1 htext).2
  intro m hm
  apply hbody m
  rw [mark, markFrom_append]
  exact List.mem_append_left _ hm

end

/-! ## What stands before a part -/

namespace Piece
variable {p : Piece} {n : ℕ}

/-- The signs in pieces. -/
def total (ps : List Piece) : ℕ := (ps.map fun p => signs p.body).sum

/-- Before a piece stand so many signs, and before each of the others those of the pieces
before it too. -/
def Counted : ℕ → List Piece → Prop
  | _, [] => True
  | n, p :: ps => signs p.before = n ∧ Counted (n + signs p.body) ps

theorem Counted.before {earlier later : List Piece} (h : Counted n (earlier ++ p :: later)) :
    signs p.before = n + total earlier := by
  induction earlier generalizing n with
  | nil => exact h.1
  | cons q earlier ih =>
    rw [ih h.2, total, total, List.map_cons, List.sum_cons, Nat.add_assoc]

theorem signsFrom_blanks {cs : List Char} (h : ∀ c ∈ cs, isWhite c = true) (st : ScanState) :
    signsFrom st cs = 0 :=
  signsFrom_eq_zero (fun c hc => (calm_of_isWhite (h c hc)).sign) st

theorem signs_before_trim (p : Piece) :
    signs p.trim.before = signs p.before := by
  rw [trim, signs, signsFrom_append,
    signsFrom_blanks fun c hc => List.mem_takeWhile_imp hc]
  rfl

theorem signs_body_trim (p : Piece) :
    signs p.trim.body = signs p.body := by
  obtain ⟨blank, hsplit, hblank⟩ := trim_append p.body
  have hfront : ∀ c ∈ p.body.takeWhile isWhite, isWhite c = true :=
    fun c hc => List.mem_takeWhile_imp hc
  have hbody : signs p.body =
      signs (p.body.takeWhile isWhite ++ (Text.trim p.body ++ blank)) :=
    congrArg signs hsplit
  rw [hbody, signs, signs, signsFrom_append, signsFrom_blanks hfront,
    ScanState.run_of_calm rfl fun c hc => calm_of_isWhite (hfront c hc), signsFrom_append,
    signsFrom_blanks hblank, Nat.zero_add, Nat.add_zero]
  rfl

theorem Counted.trim {ps : List Piece} (h : Counted n ps) : Counted n (ps.map trim) := by
  induction ps generalizing n with
  | nil => trivial
  | cons p ps ih =>
    refine ⟨(signs_before_trim p).trans h.1, ?_⟩
    rw [signs_body_trim]
    exact ih h.2

/-- Pieces without text can be left out. -/
theorem Counted.nonempty {ps : List Piece} (h : Counted n ps) :
    Counted n (ps.filter fun p => !p.body.isEmpty) := by
  induction ps generalizing n with
  | nil => trivial
  | cons p ps ih =>
    by_cases hempty : p.body = []
    · rw [List.filter_cons_of_neg (by simp [hempty])]
      have hrest := h.2
      rw [hempty] at hrest
      exact ih hrest
    · rw [List.filter_cons_of_pos (by simp [hempty])]
      exact ⟨h.1, ih h.2⟩

theorem counted_row {sep : Char} (hsep : isSign sep = false) {before cs : List Char}
    {bodies : List (List Char)} (hbefore : ScanState.run .start before = .start)
    (htiles : Tiles sep .start cs bodies) : Counted (signs before) (row sep before bodies) := by
  induction bodies generalizing before cs with
  | nil => trivial
  | cons body bodies ih =>
    refine ⟨rfl, ?_⟩
    cases bodies with
    | nil => trivial
    | cons next rest =>
      obtain ⟨after, -, hrun, hafter⟩ := htiles
      have hnone : signsFrom (ScanState.run .start body) [sep] = 0 :=
        signsFrom_eq_zero (List.forall_mem_singleton.2 hsep) _
      have hnext : signs (before ++ (body ++ [sep])) =
          signs before + signs body := by
        rw [signs, signsFrom_append, hbefore, signsFrom_append, hnone]
        rfl
      rw [← hnext]
      exact ih (by rw [ScanState.run_append, hbefore, hrun]) hafter

theorem counted_split (hp : ScanState.run .start p.before = .start) {sep : Char} (hsep : Calm sep) :
    Counted (signs p.before) (p.split sep) :=
  (counted_row hsep.sign hp (tiles_cutAt hsep ScanState.sane_start p.body)).trim

theorem counted_conjuncts {fuel : ℕ} (hp : ScanState.run .start p.before = .start) :
    Counted (signs p.before) (conjuncts fuel p) := by
  induction fuel generalizing p with
  | zero => exact ⟨rfl, trivial⟩
  | succ fuel ih =>
    rw [conjuncts]
    cases hfound : findKeyword andWord p.body with
    | none => exact ⟨rfl, trivial⟩
    | some place =>
      obtain ⟨start, stop⟩ := place
      have hdrop : signs (p.drop stop).before =
          signs p.before + signs (p.body.take start) := by
        rw [drop, signs, signsFrom_append, hp]
        exact congrArg _ (signs_take_stop keyword_and hfound)
      have hrun : ScanState.run .start (p.drop stop).before = .start := by
        rw [drop, ScanState.run_append, hp, (top_of_findKeyword keyword_and hfound).2]
      refine ⟨rfl, ?_⟩
      have hrest := ih hrun
      rwa [hdrop] at hrest

theorem counted_terms (hp : ScanState.run .start p.before = .start) :
    Counted (signs p.before) p.terms :=
  (counted_conjuncts hp).trim.nonempty

/-- Text with its white space trimmed away does not end in any. -/
theorem getLast?_trim (cs : List Char) : ∀ d ∈ (Text.trim cs).getLast?, isWhite d = false := by
  intro d hd
  rw [Text.trim, trimEnd, List.getLast?_reverse] at hd
  have hnot := List.head?_dropWhile_not isWhite (trimStart cs).reverse
  rw [Option.mem_def.1 hd] at hnot
  simpa using hnot

theorem getLast?_term {t : Piece} (ht : t ∈ p.terms) :
    ∀ d ∈ t.body.getLast?, isWhite d = false := by
  obtain ⟨q, -, rfl⟩ := List.mem_map.1 (List.mem_filter.1 ht).1
  exact getLast?_trim q.body

end Piece

/-! ## What a part holds -/

/-- The placeholders of an operand. -/
def Operand.taken : Operand → ℕ
  | .placeholder _ => 1
  | .literal _ => 0

/-- The placeholders of a condition. -/
def Condition.taken : Condition → ℕ
  | .compare _ _ value => value.taken
  | .isNull _ _ => 0
  | .unread _ ps => ps.length

theorem Ends.signs {body : List Char} {o : Operand} (h : Ends body o) :
    signs body = o.taken := by
  cases h with
  | literal l hquiet => exact hquiet.signs
  | placeholder p w hbody hw hp =>
    rw [hbody, Sql.signs, signsFrom_append, hw.run]
    exact (congrArg₂ (· + ·) hw.signs hp.signs)

theorem signs_condition {body : List Char} (hend : ∀ d ∈ body.getLast?, isWhite d = false)
    (hname : Nameless body) : signs body = (Condition.ofText body).taken := by
  rw [Condition.ofText]
  cases hread : Reader.whole? .condition body with
  | none => exact (length_placeholders hname).symm
  | some c =>
    rcases ends_condition hend hread with ⟨_, _, rfl, hquiet⟩ | ⟨_, _, o, rfl, hends⟩
    · exact hquiet.signs
    · exact hends.signs

theorem ends_of_ofText {body : List Char} {field : String} {op : CompareOp} {o : Operand}
    (hend : ∀ d ∈ body.getLast?, isWhite d = false)
    (h : Condition.ofText body = .compare field op o) : Ends body o := by
  rw [Condition.ofText] at h
  cases hread : Reader.whole? .condition body with
  | none => exact absurd h (by simp [hread])
  | some c =>
    rw [hread, Option.getD_some] at h
    rcases ends_condition hend hread with ⟨_, _, rfl, -⟩ | ⟨_, _, value, rfl, hends⟩
    · exact absurd h (by simp)
    · obtain ⟨-, -, rfl⟩ := Condition.compare.inj h
      exact hends

end RecordShelf.Sql

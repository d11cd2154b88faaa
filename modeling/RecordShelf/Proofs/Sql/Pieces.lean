import Mathlib.Data.List.TakeWhile
import RecordShelf.Proofs.Sql.Occurrences

/-!
# Where parts stand

A piece is a part of a text with all that stands before it. Every way in which a text is cut, at
keywords and at separators in top-level code, gives pieces to which a scan of the whole text comes
as to the start of a text, so that quotes and parentheses in them are as in a text of their own.
-/

namespace RecordShelf.Sql
open Text

/-! ## Keywords -/

section
variable {cs : List Char} {words : List (List Char)} {start stop : ℕ}

/-- A scan comes to a keyword, and leaves it, as to the start of a text. -/
theorem top_of_findKeyword (hwords : Keyword words) (h : findKeyword words cs = some (start, stop)) :
    ScanState.run .start (cs.take start) = .start ∧
      ScanState.run .start (cs.take stop) = .start := by
  obtain ⟨u, w, v, rfl, rfl, rfl, hoccurs⟩ := exists_occurs_of_findKeyword hwords h
  refine ⟨by rw [List.take_left, hoccurs.top], ?_⟩
  rw [← List.append_assoc, List.take_left]
  exact hoccurs.run hwords

/-- No sign counts in a keyword. -/
theorem signs_take_stop (hwords : Keyword words) (h : findKeyword words cs = some (start, stop)) :
    signs (cs.take stop) = signs (cs.take start) := by
  obtain ⟨u, w, v, rfl, rfl, rfl, hoccurs⟩ := exists_occurs_of_findKeyword hwords h
  rw [List.take_left, ← List.append_assoc, List.take_left, signs, signsFrom_append,
    signsFrom_eq_zero (fun c hc => (hoccurs.spelled.calm hwords c hc).sign)]
  rfl

end

/-! ## Pieces -/

/-- A part of a text with all that stands before it. -/
structure Piece where
  before : List Char
  body : List Char
  deriving DecidableEq

namespace Piece

def take (p : Piece) (n : ℕ) : Piece := ⟨p.before, p.body.take n⟩

def drop (p : Piece) (n : ℕ) : Piece := ⟨p.before ++ p.body.take n, p.body.drop n⟩

def trim (p : Piece) : Piece := ⟨p.before ++ p.body.takeWhile isWhite, Text.trim p.body⟩

def slice (p : Piece) (start stop : ℕ) : Piece := (p.take stop).drop start

/-- What a reader has left of a piece. -/
def behind (p : Piece) (rest : List Char) : Piece :=
  ⟨p.before ++ p.body.take (p.body.length - rest.length), rest⟩

/-- A piece that stands in a text, where a scan of the text comes to it as to a start. -/
structure Placed (text : List Char) (p : Piece) : Prop where
  inside : ∃ after, text = p.before ++ (p.body ++ after)
  clean : ScanState.run .start p.before = .start

variable {text : List Char} {p : Piece}

theorem Placed.take (h : p.Placed text) (n : ℕ) : (p.take n).Placed text := by
  obtain ⟨after, hafter⟩ := h.inside
  refine ⟨⟨p.body.drop n ++ after, ?_⟩, h.clean⟩
  rw [hafter, Piece.take, ← List.append_assoc (p.body.take n), List.take_append_drop]

theorem Placed.drop (h : p.Placed text) {n : ℕ}
    (hn : ScanState.run .start (p.body.take n) = .start) : (p.drop n).Placed text := by
  obtain ⟨after, hafter⟩ := h.inside
  refine ⟨⟨after, ?_⟩, ?_⟩
  · rw [hafter, Piece.drop, List.append_assoc, ← List.append_assoc (p.body.take n),
      List.take_append_drop]
  · rw [Piece.drop, ScanState.run_append, h.clean, hn]

theorem Placed.slice (h : p.Placed text) {start stop : ℕ}
    (hcut : ScanState.run .start ((p.body.take stop).take start) = .start) :
    (p.slice start stop).Placed text :=
  (h.take stop).drop hcut

/-- Trimming takes white space away at both ends. -/
theorem trim_append (cs : List Char) :
    ∃ blank, cs = cs.takeWhile isWhite ++ (Text.trim cs ++ blank) ∧
      ∀ c ∈ blank, isWhite c = true := by
  refine ⟨((trimStart cs).reverse.takeWhile isWhite).reverse, ?_, fun c hc => ?_⟩
  · rw [Text.trim, trimEnd, ← List.reverse_append, List.takeWhile_append_dropWhile,
      List.reverse_reverse, trimStart, List.takeWhile_append_dropWhile]
  · exact List.mem_takeWhile_imp (List.mem_reverse.1 hc)

theorem Placed.trim (h : p.Placed text) : p.trim.Placed text := by
  obtain ⟨after, hafter⟩ := h.inside
  obtain ⟨blank, hsplit, -⟩ := trim_append p.body
  refine ⟨⟨blank ++ after, ?_⟩, ?_⟩
  · rw [hafter, Piece.trim, List.append_assoc, ← List.append_assoc (Text.trim p.body),
      ← List.append_assoc (p.body.takeWhile isWhite), ← hsplit]
  · rw [Piece.trim, ScanState.run_append, h.clean]
    exact ScanState.run_of_calm rfl fun c hc => calm_of_isWhite (List.mem_takeWhile_imp hc)

theorem Placed.behind (h : p.Placed text) {w rest : List Char} (hsplit : p.body = w ++ rest)
    (hw : ScanState.run .start w = .start) : (p.behind rest).Placed text := by
  obtain ⟨after, hafter⟩ := h.inside
  have htake : p.body.take (p.body.length - rest.length) = w := by
    rw [hsplit, List.length_append, Nat.add_sub_cancel_right, List.take_left']
    rfl
  refine ⟨⟨after, ?_⟩, ?_⟩
  · rw [hafter, Piece.behind, htake, List.append_assoc, ← List.append_assoc w, ← hsplit]
  · rw [Piece.behind, htake, ScanState.run_append, h.clean, hw]

/-! ## Cutting at a separator -/

/-- Texts in a row, with a separator between them. -/
def row (sep : Char) (before : List Char) : List (List Char) → List Piece
  | [] => []
  | body :: rest => ⟨before, body⟩ :: row sep (before ++ (body ++ [sep])) rest

/-- The trimmed pieces between separators in top-level code. -/
def split (p : Piece) (sep : Char) : List Piece :=
  (row sep p.before (cutAt sep (mark p.body))).map trim

theorem map_body_row (sep : Char) (before : List Char) (bodies : List (List Char)) :
    (row sep before bodies).map body = bodies := by
  induction bodies generalizing before with
  | nil => rfl
  | cons body bodies ih => rw [row, List.map_cons, ih]

theorem map_body_split (p : Piece) (sep : Char) :
    (p.split sep).map body = splitTopLevel sep p.body := by
  rw [split, splitTopLevel, ← map_body_row sep p.before (cutAt sep (mark p.body)), List.map_map,
    List.map_map, map_body_row]
  rfl

/-- Texts that make up a text with a separator between them, each of which ends where a scan starts
anew behind the separator. -/
def Tiles (sep : Char) : ScanState → List Char → List (List Char) → Prop
  | _, _, [] => False
  | _, cs, [body] => cs = body
  | st, cs, body :: next :: rest => ∃ after, cs = body ++ sep :: after ∧
      st.run (body ++ [sep]) = .start ∧ Tiles sep .start after (next :: rest)

theorem tiles_cutAt {sep : Char} (hsep : Calm sep) {st : ScanState} (hst : st.Sane)
    (cs : List Char) : Tiles sep st cs (cutAt sep (markFrom st cs)) := by
  induction cs generalizing st with
  | nil => exact rfl
  | cons c cs ih =>
    have htiles := ih (hst.step c)
    rw [markFrom, cutAt]
    cases hpieces : cutAt sep (markFrom (st.step c).2 cs) with
    | nil =>
      rw [hpieces] at htiles
      exact absurd htiles (by simp [Tiles])
    | cons body rest =>
      rw [hpieces] at htiles
      dsimp only
      split_ifs with hcut
      · obtain ⟨rfl, htop⟩ := hcut
        obtain rfl := ScanState.eq_start_of_top hst hsep (beq_iff_eq.1 htop)
        have hstep : (ScanState.start.step c).2 = .start := by
          rw [ScanState.step_of_calm rfl hsep]
        rw [hstep] at htiles
        exact ⟨cs, rfl, hstep, htiles⟩
      · cases rest with
        | nil => exact congrArg (c :: ·) htiles
        | cons next rest =>
          obtain ⟨after, hsplit, hrun, hafter⟩ := htiles
          exact ⟨after, congrArg (c :: ·) hsplit, hrun, hafter⟩

theorem placed_row {sep : Char} {before cs : List Char} {bodies : List (List Char)}
    (h : Placed text ⟨before, cs⟩) (htiles : Tiles sep .start cs bodies) :
    ∀ q ∈ row sep before bodies, q.Placed text := by
  induction bodies generalizing before cs with
  | nil => exact fun q hq => absurd hq List.not_mem_nil
  | cons body bodies ih =>
    intro q hq
    cases bodies with
    | nil =>
      obtain rfl : cs = body := htiles
      obtain rfl := List.mem_singleton.1 hq
      exact h
    | cons next rest =>
      obtain ⟨after, rfl, hrun, hafter⟩ := htiles
      have hfirst : Placed text ⟨before, body⟩ := by
        have htake := h.take body.length
        rwa [Piece.take, List.take_left'] at htake
        rfl
      have hbehind : Placed text ⟨before ++ (body ++ [sep]), after⟩ := by
        obtain ⟨last, hlast⟩ := h.inside
        refine ⟨⟨last, ?_⟩, ?_⟩
        · rw [hlast]
          simp only [List.append_assoc, List.cons_append, List.nil_append]
        · rw [ScanState.run_append, h.clean, hrun]
      rcases List.mem_cons.1 hq with rfl | hq
      · exact hfirst
      · exact ih hbehind hafter q hq

theorem Placed.split (h : p.Placed text) {sep : Char} (hsep : Calm sep) :
    ∀ q ∈ p.split sep, q.Placed text := by
  intro q hq
  obtain ⟨r, hr, rfl⟩ := List.mem_map.1 hq
  exact (placed_row h (tiles_cutAt hsep ScanState.sane_start p.body) r hr).trim

/-! ## Cutting at every AND -/

/-- Cuts at the first AND and goes on with what follows it; the fuel bounds the cuts. -/
def conjuncts : ℕ → Piece → List Piece
  | 0, p => [p]
  | fuel + 1, p =>
    match findKeyword andWord p.body with
    | some (start, stop) => p.take start :: conjuncts fuel (p.drop stop)
    | none => [p]

/-- The terms of a conjunction, without empty ones. -/
def terms (p : Piece) : List Piece :=
  ((conjuncts p.body.length p).map trim).filter fun t => !t.body.isEmpty

theorem map_body_conjuncts (fuel : ℕ) (p : Piece) :
    (conjuncts fuel p).map body = Sql.conjuncts fuel p.body := by
  induction fuel generalizing p with
  | zero => rfl
  | succ fuel ih =>
    rw [conjuncts, Sql.conjuncts]
    cases findKeyword andWord p.body with
    | none => rfl
    | some place =>
      dsimp only
      rw [List.map_cons, ih]
      rfl

theorem map_body_terms (p : Piece) : p.terms.map body = splitConjunction p.body := by
  have hfilter : (fun t : Piece => !t.body.isEmpty) = (fun cs : List Char => !cs.isEmpty) ∘ body :=
    rfl
  rw [terms, splitConjunction, ← map_body_conjuncts, hfilter, ← List.filter_map, List.map_map,
    List.map_map]
  rfl

theorem placed_conjuncts {fuel : ℕ} (h : p.Placed text) :
    ∀ q ∈ conjuncts fuel p, q.Placed text := by
  induction fuel generalizing p with
  | zero => exact List.forall_mem_singleton.2 h
  | succ fuel ih =>
    rw [conjuncts]
    cases hfound : findKeyword andWord p.body with
    | none => exact List.forall_mem_singleton.2 h
    | some place =>
      exact List.forall_mem_cons.2 ⟨h.take _, ih (h.drop (top_of_findKeyword keyword_and hfound).2)⟩

theorem Placed.terms (h : p.Placed text) : ∀ q ∈ p.terms, q.Placed text := by
  intro q hq
  obtain ⟨r, hr, rfl⟩ := List.mem_map.1 (List.mem_filter.1 hq).1
  exact (placed_conjuncts h r hr).trim

/-! ## Clauses -/

/-- Each clause with its trimmed body. -/
def clauses (p : Piece) : List ClauseMark → List (ClauseName × Piece)
  | [] => []
  | m :: ms => (m.name, (p.slice m.stop (nextStart p.body ms)).trim) :: clauses p ms

theorem map_body_clauses (p : Piece) (ms : List ClauseMark) :
    (p.clauses ms).map (fun clause => (clause.1, clause.2.body)) = clauseBodies p.body ms := by
  induction ms with
  | nil => rfl
  | cons m ms ih => rw [clauses, List.map_cons, ih]; rfl

/-- A scan comes to a clause keyword, and leaves it, as to the start of a text. -/
def TopMark (cs : List Char) (m : ClauseMark) : Prop :=
  ScanState.run .start (cs.take m.start) = .start ∧ ScanState.run .start (cs.take m.stop) = .start

theorem topMark_of_mem {cs : List Char} : ∀ m ∈ clauseMarks cs, TopMark cs m := by
  intro m hm
  exact top_of_findKeyword (keyword_clause m.name) (findKeyword_of_mem_clauseMarks hm)

/-- A scan comes to the start of the next clause, and to any place before a cut there, as to the
start of a text. -/
theorem run_take_nextStart {cs : List Char} {ms : List ClauseMark} (hms : ∀ m ∈ ms, TopMark cs m)
    {n : ℕ} (hn : ScanState.run .start (cs.take n) = .start) :
    ScanState.run .start ((cs.take (nextStart cs ms)).take n) = .start := by
  cases ms with
  | nil => rwa [nextStart, List.take_length]
  | cons m ms =>
    rw [nextStart, List.take_take]
    rcases Nat.le_total n m.start with hle | hle
    · rwa [Nat.min_eq_left hle]
    · rw [Nat.min_eq_right hle]
      exact (hms m List.mem_cons_self).1

theorem Placed.clauses (h : p.Placed text) {ms : List ClauseMark}
    (hms : ∀ m ∈ ms, TopMark p.body m) : ∀ clause ∈ p.clauses ms, clause.2.Placed text := by
  induction ms with
  | nil => exact fun clause hclause => absurd hclause List.not_mem_nil
  | cons m ms ih =>
    obtain ⟨hm, hms⟩ := List.forall_mem_cons.1 hms
    exact List.forall_mem_cons.2 ⟨(h.slice (run_take_nextStart hms hm.2)).trim, ih hms⟩

/-- What precedes the first clause. -/
def head (p : Piece) : Piece := (p.slice 0 (nextStart p.body (clauseMarks p.body))).trim

/-- The body of a clause. -/
def clause? (p : Piece) (name : ClauseName) : Option Piece :=
  ((p.clauses (clauseMarks p.body)).find? fun clause => clause.1 = name).map (·.2)

theorem body_head (p : Piece) : p.head.body = (Clauses.ofText p.body).head := rfl

theorem map_body_clause? (p : Piece) (name : ClauseName) :
    (p.clause? name).map body = (Clauses.ofText p.body).body? name := by
  rw [clause?, Clauses.body?, Clauses.ofText, ← map_body_clauses, List.find?_map, Option.map_map,
    Option.map_map]
  rfl

theorem Placed.head (h : p.Placed text) : p.head.Placed text :=
  (h.slice (by simp [ScanState.run])).trim

theorem Placed.clause? (h : p.Placed text) {name : ClauseName} :
    ∀ q ∈ p.clause? name, q.Placed text := by
  intro q hq
  obtain ⟨clause, hclause, rfl⟩ := Option.map_eq_some_iff.1 (Option.mem_def.1 hq)
  exact h.clauses topMark_of_mem clause (List.mem_of_find?_eq_some hclause)

end Piece

end RecordShelf.Sql

import Mathlib.Data.List.Basic
import RecordShelf.Proofs.Sql.Counting
import RecordShelf.Proofs.Sql.StandingWords

/-!
# Placeholders of pieces

The placeholders of a text are those that start in its pieces, in order, whichever way it was cut. A
name runs on to where its word ends, so what a piece holds depends on the character before it and on
the text behind it; only an AND right behind a colon can make a difference there.
-/

namespace RecordShelf.Sql
open Text

/-! ## Texts with a context -/

/-- A colon behind such a character starts no name for the scanner. -/
def shadows (c : Char) : Bool := isAsciiWord c || c == ':'

/-- The placeholder that starts at a character, given the character before it and the text behind it. -/
def placeholderAt (before : Option Char) (m : Marked) (after : List Char) : List Placeholder :=
  if m.isQuoted then []
  else if m.1 = '?' then [.positional]
  else if m.1 = ':' ∧ !(before.any shadows) then
    ((placeholderName? after).map Placeholder.named).toList
  else []

/-- The placeholders that start in a text, for a scan that comes to it in some state and behind some
character, with more text behind it. -/
def startsIn (st : ScanState) (before : Option Char) (after : List Char) :
    List Char → List Placeholder
  | [] => []
  | c :: cs =>
    placeholderAt before (c, (st.step c).1) (cs ++ after) ++ startsIn (st.step c).2 (some c) after cs

section
variable {st : ScanState} {before : Option Char} {after cs ds : List Char} {c : Char}

theorem placeholdersFrom_eq (st : ScanState) (before : Option Char) (cs : List Char) :
    placeholdersFrom before (markFrom st cs) = startsIn st before [] cs := by
  induction cs generalizing st before with
  | nil => rfl
  | cons c cs ih =>
    rw [markFrom, placeholdersFrom, startsIn, ← ih, markFrom_map_fst, List.append_nil]
    rfl

theorem placeholders_eq (cs : List Char) : placeholders cs = startsIn .start none [] cs :=
  placeholdersFrom_eq .start none cs

theorem startsIn_append (st : ScanState) (before : Option Char) (after cs ds : List Char) :
    startsIn st before after (cs ++ ds) =
      startsIn st before (ds ++ after) cs ++
        startsIn (st.run cs) (cs.getLast?.or before) after ds := by
  induction cs generalizing st before with
  | nil => rfl
  | cons c cs ih =>
    have hlast : cs.getLast?.or (some c) = (c :: cs).getLast?.or before := by
      rw [List.getLast?_cons]
      cases cs.getLast? <;> rfl
    rw [List.cons_append, startsIn, startsIn, ih, hlast, ← List.append_assoc, List.append_assoc cs]
    rfl

theorem placeholderAt_eq_nil {m : Marked} (h : ¬ (m.2 ≠ .quoted ∧ isSign m.1 = true)) :
    placeholderAt before m after = [] := by
  rw [placeholderAt]
  by_cases hquoted : m.2 = .quoted
  · simp [Marked.isQuoted, hquoted]
  · have hsign : isSign m.1 = false := by
      rw [← Bool.not_eq_true]
      exact fun hsign => h ⟨hquoted, hsign⟩
    simp only [isSign, Bool.or_eq_false_iff, beq_eq_false_iff_ne] at hsign
    simp [hsign.1, hsign.2]

/-- Where no sign counts no placeholder starts. -/
theorem startsIn_eq_nil (h : signsFrom st cs = 0) : startsIn st before after cs = [] := by
  induction cs generalizing st before with
  | nil => rfl
  | cons c cs ih =>
    rw [signsFrom_cons, Nat.add_eq_zero_iff] at h
    have hnot : ¬ ((st.step c).1 ≠ .quoted ∧ isSign c = true) := fun hsign => by
      rw [if_pos hsign] at h
      exact absurd h.1 Nat.one_ne_zero
    rw [startsIn, placeholderAt_eq_nil hnot, ih h.2, List.append_nil]

/-- Only the word that a text starts with matters for a name that runs on to there. -/
theorem placeholderName?_congr (h : after.takeWhile isAsciiWord = ds.takeWhile isAsciiWord)
    (cs : List Char) : placeholderName? (cs ++ after) = placeholderName? (cs ++ ds) := by
  have hword : (cs ++ after).takeWhile isAsciiWord = (cs ++ ds).takeWhile isAsciiWord := by
    rw [List.takeWhile_append, List.takeWhile_append, h]
  rw [placeholderName?, placeholderName?, hword]

theorem startsIn_congr (h : after.takeWhile isAsciiWord = ds.takeWhile isAsciiWord) :
    startsIn st before after cs = startsIn st before ds cs := by
  induction cs generalizing st before with
  | nil => rfl
  | cons c cs ih =>
    rw [startsIn, startsIn, ih, placeholderAt, placeholderAt, placeholderName?_congr h]

end

namespace Piece
variable {text : List Char} {p q : Piece}

/-- The text behind a piece. -/
def after (text : List Char) (p : Piece) : List Char := text.drop (p.before.length + p.body.length)

/-- The placeholders that start in a piece of a text. -/
def scanned (text : List Char) (p : Piece) : List Placeholder :=
  startsIn .start p.before.getLast? (p.after text) p.body

theorem after_eq {rest : List Char} (h : text = p.before ++ (p.body ++ rest)) :
    p.after text = rest := by
  rw [after, h, ← List.append_assoc, ← List.length_append, List.drop_left]

theorem Placed.eq_append (h : p.Placed text) : text = p.before ++ (p.body ++ p.after text) := by
  obtain ⟨rest, hrest⟩ := h.inside
  rw [after_eq hrest]
  exact hrest

/-- A piece in two parts, the second of which a scan comes to as to a start. -/
theorem scanned_append {before u v : List Char} (h : Placed text ⟨before, u ++ v⟩)
    (hu : ScanState.run .start u = .start) :
    scanned text ⟨before, u ++ v⟩ = scanned text ⟨before, u⟩ ++ scanned text ⟨before ++ u, v⟩ := by
  have htext := h.eq_append
  have hfirst : after text ⟨before, u⟩ = v ++ after text ⟨before, u ++ v⟩ :=
    after_eq (p := ⟨before, u⟩) (htext.trans (by simp only [List.append_assoc]))
  have hsecond : after text ⟨before ++ u, v⟩ = after text ⟨before, u ++ v⟩ :=
    after_eq (p := ⟨before ++ u, v⟩) (htext.trans (by simp only [List.append_assoc]))
  rw [scanned, startsIn_append, hu, scanned, scanned, hfirst, hsecond, List.getLast?_append]

/-- What stands at the end of a piece and holds no sign can be left off. -/
theorem scanned_append_of_quiet {before u v : List Char} (h : Placed text ⟨before, u ++ v⟩)
    (hv : signsFrom (ScanState.run .start u) v = 0) :
    scanned text ⟨before, u ++ v⟩ = scanned text ⟨before, u⟩ := by
  have hfirst : after text ⟨before, u⟩ = v ++ after text ⟨before, u ++ v⟩ :=
    after_eq (p := ⟨before, u⟩) (h.eq_append.trans (by simp only [List.append_assoc]))
  rw [scanned, startsIn_append, startsIn_eq_nil hv, List.append_nil, scanned, hfirst]

theorem scanned_of_quiet (h : signs p.body = 0) : p.scanned text = [] := startsIn_eq_nil h

theorem Placed.scanned_trim (h : p.Placed text) : p.trim.scanned text = p.scanned text := by
  obtain ⟨before, body⟩ := p
  obtain ⟨blank, hsplit, hblank⟩ := trim_append body
  have hfront : ∀ c ∈ body.takeWhile isWhite, isWhite c = true :=
    fun c hc => List.mem_takeWhile_imp hc
  have hrun : ScanState.run .start (body.takeWhile isWhite) = .start :=
    ScanState.run_of_calm rfl fun c hc => calm_of_isWhite (hfront c hc)
  change scanned text ⟨before ++ body.takeWhile isWhite, Text.trim body⟩ = _
  generalize body.takeWhile isWhite = front at hsplit hfront hrun ⊢
  generalize Text.trim body = core at hsplit ⊢
  subst hsplit
  have hcore : Placed text ⟨before ++ front, core ++ blank⟩ := by
    have hdrop := h.drop (n := front.length) (by rw [List.take_left]; exact hrun)
    rwa [Piece.drop, List.take_left, List.drop_left] at hdrop
  rw [scanned_append h hrun, scanned_of_quiet (p := ⟨before, front⟩) (signsFrom_blanks hfront _),
    List.nil_append, scanned_append_of_quiet hcore (signsFrom_blanks hblank _)]

end Piece

/-! ## Terms in their text -/

namespace Piece
variable {text : List Char} {p q : Piece} {fuel : ℕ}

/-- One cut at the first AND, if there is one. -/
theorem conjuncts_succ (fuel : ℕ) (p : Piece) :
    (conjuncts (fuel + 1) p = [p] ∧ NoAnd p.body) ∨
      ∃ u w v, p.body = u ++ (w ++ v) ∧ Stands "and".toList u w v ∧ NoAnd u ∧
        conjuncts (fuel + 1) p = ⟨p.before, u⟩ :: conjuncts fuel ⟨p.before ++ (u ++ w), v⟩ := by
  rw [conjuncts]
  cases hfound : findKeyword andWord p.body with
  | none => exact Or.inl ⟨rfl, noAnd_of_none hfound⟩
  | some place =>
    obtain ⟨start, stop⟩ := place
    obtain ⟨u, w, v, hbody, hstart, hstop, hstands⟩ := exists_stands_and hfound
    rw [hbody, hstart] at hfound
    refine Or.inr ⟨u, w, v, hbody, hstands, noAnd_before hfound hstands.before, ?_⟩
    dsimp only
    rw [take, drop, hbody, hstart, hstop, List.take_left, ← List.append_assoc u, List.take_left,
      List.drop_left]

/-- A piece ends where no word goes on, or directly before an AND and not in a word. -/
def Fenced (text : List Char) (p : Piece) : Prop :=
  EndsWord (p.after text) ∨
    (∀ d ∈ p.body.getLast?, isAsciiWord d = false) ∧
      ((p.after text).takeWhile isAsciiWord).map Char.toLower = "and".toList

/-- The parts that a cut at an AND leaves stand in the text. -/
theorem Placed.around_and {u w v : List Char} (h : p.Placed text) (hbody : p.body = u ++ (w ++ v))
    (hstands : Stands "and".toList u w v) :
    Placed text ⟨p.before, u⟩ ∧ Placed text ⟨p.before ++ (u ++ w), v⟩ := by
  have hcalm := hstands.calm (by decide)
  have hrun : ScanState.run .start (u ++ w) = .start := by
    rw [ScanState.run_append, hstands.top, ScanState.run_of_calm rfl hcalm]
  have htake := h.take u.length
  have hdrop := h.drop (n := (u ++ w).length) (by
    rw [hbody, ← List.append_assoc, List.take_left]
    exact hrun)
  rw [Piece.take, hbody, List.take_left] at htake
  rw [Piece.drop, hbody, ← List.append_assoc, List.take_left, List.drop_left] at hdrop
  exact ⟨htake, hdrop⟩

theorem Placed.scanned_conjuncts (h : p.Placed text) :
    (conjuncts fuel p).flatMap (scanned text) = p.scanned text := by
  induction fuel generalizing p with
  | zero => exact List.flatMap_singleton ..
  | succ fuel ih =>
    rcases conjuncts_succ fuel p with ⟨hcut, -⟩ | ⟨u, w, v, hbody, hstands, -, hcut⟩
    · rw [hcut]
      exact List.flatMap_singleton ..
    · obtain ⟨before, body⟩ := p
      dsimp only at hbody hcut
      obtain ⟨hfirst, hrest⟩ := h.around_and hbody hstands
      have hcalm := hstands.calm (by decide)
      subst hbody
      have hkeyword : Placed text ⟨before, u ++ w⟩ := by
        have htake := h.take (u ++ w).length
        rwa [Piece.take, ← List.append_assoc, List.take_left] at htake
      have hall : Placed text ⟨before, (u ++ w) ++ v⟩ := by rwa [List.append_assoc]
      have hrun : ScanState.run .start (u ++ w) = .start := by
        rw [ScanState.run_append, hstands.top, ScanState.run_of_calm rfl hcalm]
      have hquiet : signsFrom (ScanState.run .start u) w = 0 :=
        signsFrom_eq_zero (fun c hc => (hcalm c hc).sign) _
      calc (conjuncts (fuel + 1) ⟨before, u ++ (w ++ v)⟩).flatMap (scanned text)
          = scanned text ⟨before, u⟩ ++ scanned text ⟨before ++ (u ++ w), v⟩ := by
            rw [hcut, List.flatMap_cons, ih hrest]
        _ = scanned text ⟨before, u ++ w⟩ ++ scanned text ⟨before ++ (u ++ w), v⟩ := by
            rw [scanned_append_of_quiet hkeyword hquiet]
        _ = scanned text ⟨before, (u ++ w) ++ v⟩ := (scanned_append hall hrun).symm
        _ = scanned text ⟨before, u ++ (w ++ v)⟩ := by rw [List.append_assoc]

theorem fenced_conjuncts (h : p.Placed text) (hend : p.after text = []) :
    ∀ q ∈ conjuncts fuel p, q.Fenced text := by
  induction fuel generalizing p with
  | zero => exact List.forall_mem_singleton.2 (Or.inl (hend ▸ ends_nil))
  | succ fuel ih =>
    rcases conjuncts_succ fuel p with ⟨hcut, -⟩ | ⟨u, w, v, hbody, hstands, -, hcut⟩
    · rw [hcut]
      exact List.forall_mem_singleton.2 (Or.inl (hend ▸ ends_nil))
    · obtain ⟨-, hrest⟩ := h.around_and hbody hstands
      have htext : text = p.before ++ (u ++ (w ++ v)) := by
        rw [← hbody]
        simpa only [hend, List.append_nil] using h.eq_append
      have hafter : after text ⟨p.before, u⟩ = w ++ v := after_eq htext
      have hlast : after text ⟨p.before ++ (u ++ w), v⟩ = [] :=
        after_eq (htext.trans (by simp only [List.append_assoc, List.append_nil]))
      rw [hcut]
      refine List.forall_mem_cons.2 ⟨Or.inr ⟨hstands.before, ?_⟩, ih hrest hlast⟩
      rw [hafter, Reader.takeWhile_append (hstands.letter (by decide)) hstands.behind]
      exact hstands.letters

theorem noAnd_conjuncts (hfuel : p.body.length ≤ fuel) : ∀ q ∈ conjuncts fuel p, NoAnd q.body := by
  induction fuel generalizing p with
  | zero =>
    refine List.forall_mem_singleton.2 fun u w v hbody hstands => ?_
    have hlength : w.length = 3 := hstands.length
    have hnone := congrArg List.length hbody
    simp only [List.length_append] at hnone
    omega
  | succ fuel ih =>
    rcases conjuncts_succ fuel p with ⟨hcut, hnone⟩ | ⟨u, w, v, hbody, hstands, hnone, hcut⟩
    · rw [hcut]
      exact List.forall_mem_singleton.2 hnone
    · have hlength : w.length = 3 := hstands.length
      have hshort := congrArg List.length hbody
      simp only [List.length_append] at hshort
      rw [hcut]
      exact List.forall_mem_cons.2 ⟨hnone, ih (by dsimp only; omega)⟩

/-- Behind a trimmed piece stands the white space that was at its end. -/
theorem Placed.after_trim (h : p.Placed text) : ∃ blank, (∀ c ∈ blank, isWhite c = true) ∧
    p.trim.after text = blank ++ p.after text ∧
      p.body = p.body.takeWhile isWhite ++ (p.trim.body ++ blank) := by
  obtain ⟨before, body⟩ := p
  obtain ⟨blank, hsplit, hblank⟩ := trim_append body
  refine ⟨blank, hblank, after_eq (p := Piece.trim ⟨before, body⟩) (h.eq_append.trans ?_), hsplit⟩
  calc before ++ (body ++ after text ⟨before, body⟩)
      = before ++ ((body.takeWhile isWhite ++ (Text.trim body ++ blank)) ++
          after text ⟨before, body⟩) := by rw [← hsplit]
    _ = _ := by simp only [Piece.trim, List.append_assoc]

theorem endsWord_append {blank after : List Char} (hblank : ∀ c ∈ blank, isWhite c = true)
    (h : EndsWord after) : EndsWord (blank ++ after) := by
  cases blank with
  | nil => exact h
  | cons c blank => exact ends_cons (isAsciiWord_of_isWhite (hblank c List.mem_cons_self)) _

theorem Fenced.trim (hp : p.Placed text) (h : p.Fenced text) : p.trim.Fenced text := by
  obtain ⟨blank, hblank, hafter, hsplit⟩ := hp.after_trim
  rw [Fenced, hafter]
  cases blank with
  | cons c blank =>
    exact Or.inl (ends_cons (isAsciiWord_of_isWhite (hblank c List.mem_cons_self)) _)
  | nil =>
    refine h.imp id fun hand => ⟨fun d hd => hand.1 d ?_, hand.2⟩
    rw [hsplit, List.append_nil, List.getLast?_append, Option.mem_def.1 hd]
    rfl

/-- What is known of a term of a text. -/
structure Term (text : List Char) (t : Piece) : Prop where
  nonempty : t.body ≠ []
  trimmed : ∀ d ∈ t.body.getLast?, isWhite d = false
  noAnd : NoAnd t.body
  fenced : t.Fenced text

theorem placed_self (text : List Char) : Placed text ⟨[], text⟩ :=
  ⟨⟨[], by rw [List.append_nil, List.nil_append]⟩, rfl⟩

theorem after_self (text : List Char) : after text ⟨[], text⟩ = [] :=
  after_eq (p := ⟨[], text⟩) (by rw [List.append_nil, List.nil_append])

theorem term_of_mem {t : Piece} (ht : t ∈ terms ⟨[], text⟩) : t.Term text := by
  obtain ⟨hmem, hnonempty⟩ := List.mem_filter.1 ht
  obtain ⟨q, hq, rfl⟩ := List.mem_map.1 hmem
  have hplaced := placed_conjuncts (placed_self text) q hq
  exact ⟨by simpa using hnonempty, getLast?_term ht, (noAnd_conjuncts le_rfl q hq).trim,
    (fenced_conjuncts (placed_self text) (after_self text) q hq).trim hplaced⟩

/-- The placeholders of a text are those that start in its terms. -/
theorem flatMap_scanned_terms (text : List Char) :
    (terms ⟨[], text⟩).flatMap (scanned text) = placeholders text := by
  have hnonempty : ∀ ps : List Piece,
      (ps.filter fun t => !t.body.isEmpty).flatMap (scanned text) = ps.flatMap (scanned text) := by
    intro ps
    induction ps with
    | nil => rfl
    | cons p ps ih =>
      rw [List.flatMap_cons, ← ih]
      by_cases hempty : p.body = []
      · rw [List.filter_cons_of_neg (by simp [hempty]), scanned, hempty]
        rfl
      · rw [List.filter_cons_of_pos (by simp [hempty]), List.flatMap_cons]
  have htrim : ∀ q ∈ conjuncts text.length ⟨[], text⟩, q.trim.scanned text = q.scanned text :=
    fun q hq => (placed_conjuncts (placed_self text) q hq).scanned_trim
  rw [terms, hnonempty, List.flatMap_map, List.flatMap_congr htrim,
    (placed_self text).scanned_conjuncts, scanned, after_self, placeholders_eq]
  rfl

/-! ## Items in their text -/

section
variable {sep : Char} {before cs : List Char} {bodies : List (List Char)}

/-- A scan comes to what is behind a separator as to a start. -/
theorem Placed.behind_separator {body rest : List Char} (h : Placed text ⟨before, body ++ sep :: rest⟩)
    (hrun : ScanState.run .start (body ++ [sep]) = .start) :
    Placed text ⟨before, body ++ [sep]⟩ ∧ Placed text ⟨before ++ (body ++ [sep]), rest⟩ := by
  have hsame : body ++ sep :: rest = (body ++ [sep]) ++ rest := by simp
  rw [hsame] at h
  have htake := h.take (body ++ [sep]).length
  have hdrop := h.drop (n := (body ++ [sep]).length) (by rw [List.take_left]; exact hrun)
  rw [Piece.take, List.take_left] at htake
  rw [Piece.drop, List.take_left, List.drop_left] at hdrop
  exact ⟨htake, hdrop⟩

theorem flatMap_scanned_row (hsep : Calm sep) (h : Placed text ⟨before, cs⟩)
    (htiles : Tiles sep .start cs bodies) :
    (row sep before bodies).flatMap (scanned text) = scanned text ⟨before, cs⟩ := by
  induction bodies generalizing before cs with
  | nil => exact htiles.elim
  | cons body bodies ih =>
    cases bodies with
    | nil =>
      obtain rfl : cs = body := htiles
      exact List.flatMap_singleton ..
    | cons next rest =>
      obtain ⟨behind, rfl, hrun, hrest⟩ := htiles
      obtain ⟨hfirst, hbehind⟩ := h.behind_separator hrun
      have hquiet : signsFrom (ScanState.run .start body) [sep] = 0 :=
        signsFrom_eq_zero (List.forall_mem_singleton.2 hsep.sign) _
      have hsame : body ++ sep :: behind = (body ++ [sep]) ++ behind := by simp
      rw [hsame] at h ⊢
      rw [row, List.flatMap_cons, ih hbehind hrest, scanned_append h hrun,
        scanned_append_of_quiet hfirst hquiet]

/-- Each text of a row but the last has its separator behind it. -/
theorem endsWord_row (hsep : isAsciiWord sep = false) (h : Placed text ⟨before, cs⟩)
    (hend : after text ⟨before, cs⟩ = []) (htiles : Tiles sep .start cs bodies) :
    ∀ q ∈ row sep before bodies, EndsWord (q.after text) := by
  induction bodies generalizing before cs with
  | nil => exact htiles.elim
  | cons body bodies ih =>
    cases bodies with
    | nil =>
      obtain rfl : cs = body := htiles
      exact List.forall_mem_singleton.2 (hend ▸ ends_nil)
    | cons next rest =>
      obtain ⟨behind, rfl, hrun, hrest⟩ := htiles
      have htext : text = before ++ (body ++ (sep :: behind)) := by
        simpa only [hend, List.append_nil] using h.eq_append
      have hafter : after text ⟨before, body⟩ = sep :: behind := after_eq htext
      have hlast : after text ⟨before ++ (body ++ [sep]), behind⟩ = [] :=
        after_eq (htext.trans (by simp))
      exact List.forall_mem_cons.2 ⟨hafter ▸ ends_cons hsep behind,
        ih (h.behind_separator hrun).2 hlast hrest⟩

/-- The placeholders of a text are those that start in its items. -/
theorem flatMap_scanned_split (hsep : Calm sep) (text : List Char) :
    (split ⟨[], text⟩ sep).flatMap (scanned text) = placeholders text := by
  have htiles : Tiles sep .start text (cutAt sep (mark text)) :=
    tiles_cutAt hsep ScanState.sane_start text
  have htrim : ∀ q ∈ row sep [] (cutAt sep (mark text)), q.trim.scanned text = q.scanned text :=
    fun q hq => (placed_row (placed_self text) htiles q hq).scanned_trim
  rw [split, List.flatMap_map, List.flatMap_congr htrim,
    flatMap_scanned_row hsep (placed_self text) htiles, scanned, after_self, placeholders_eq]
  rfl

/-- No word goes on behind an item. -/
theorem endsWord_split (hsep : Calm sep) (hword : isAsciiWord sep = false) (text : List Char) :
    ∀ q ∈ split ⟨[], text⟩ sep, EndsWord (q.after text) := by
  have htiles : Tiles sep .start text (cutAt sep (mark text)) :=
    tiles_cutAt hsep ScanState.sane_start text
  intro q hq
  obtain ⟨r, hr, rfl⟩ := List.mem_map.1 hq
  obtain ⟨blank, hblank, hafter, -⟩ := (placed_row (placed_self text) htiles r hr).after_trim
  rw [hafter]
  exact endsWord_append hblank (endsWord_row hword (placed_self text) (after_self text) htiles r hr)

end

end Piece

end RecordShelf.Sql

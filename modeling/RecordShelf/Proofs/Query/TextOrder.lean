import RecordShelf.Proofs.Query.Binding
import RecordShelf.Proofs.Sql.UpdateParts

/-!
# Params in text order

A placeholder that ends a part of a text stands behind all placeholders of the text before that part
and behind none in the part itself. So it takes the param of its place in the text exactly when the
binder has come as far as there are placeholders before the part.
-/

namespace RecordShelf.Query
open Sql
variable {text : List Char} {p : Piece} {ph : Placeholder}

/-- What stands in the text before a placeholder at the end of a piece. -/
def ahead (p : Piece) (ph : Placeholder) : List Char :=
  p.before ++ p.body.take (p.body.length - ph.written.length)

/-- Where a placeholder at the end of a piece stands in the text, and which param it takes. This is
the param of its place in the text exactly when as many placeholders stand ahead of it, and where no
placeholder has a name the last condition says when that is so. -/
structure Binds (text : List Char) (p : Piece) (ph : Placeholder)
    (value : Params → Option (Option Json)) (place : ℕ) (inOrder : Prop) : Prop where
  written : ∃ rest, text = ahead p ph ++ (ph.written ++ rest)
  code : ScanState.run .start (ahead p ph) = .start
  takes : ∀ n, Takes value n ↔ n = place
  inOrder : Nameless text → (Takes value (placeholders (ahead p ph)).length ↔ inOrder)

theorem ahead_eq {w : List Char} (h : p.body = w ++ ph.written) : ahead p ph = p.before ++ w := by
  rw [ahead, h, List.length_append, Nat.add_sub_cancel_right, List.take_left']
  rfl

theorem binds_of_takes (hplaced : p.Placed text) (hends : Ends p.body (.placeholder ph))
    {value : Params → Option (Option Json)} {place : ℕ} {inOrder : Prop}
    (htakes : Takes value place)
    (horder : Nameless text → (signs p.before = place ↔ inOrder)) :
    Binds text p ph value place inOrder := by
  obtain ⟨rest, hrest⟩ := hplaced.inside
  cases hends with
  | placeholder _ w hbody hw =>
    have hahead := ahead_eq hbody
    have hwritten : text = ahead p ph ++ (ph.written ++ rest) := by
      rw [hahead, hrest, hbody, List.append_assoc, List.append_assoc]
    have hcode : ScanState.run .start (ahead p ph) = .start := by
      rw [hahead, ScanState.run_append, hplaced.clean, hw.run]
    refine ⟨⟨rest, hwritten⟩, hcode, htakes.iff_eq, fun hname => ?_⟩
    have hmarks : signs (ahead p ph) = signs p.before := by
      rw [hahead, signs, signsFrom_append, hplaced.clean]
      exact congrArg _ hw.signs
    have hlength : (placeholders (ahead p ph)).length = signs p.before := by
      rw [hwritten] at hname
      rw [length_placeholders ((nameless_append hcode).1 hname).1, hmarks]
    rw [htakes.iff_eq, hlength]
    exact horder hname

/-! ## Placeholders in a clause -/

/-- A part of a clause takes the param of its place in the text exactly when the binder has met all
placeholders that stand before the clause, if it meets those of the clause. -/
theorem binds_in_clause {clause : Piece} (hclause : clause.Placed text) (hplaced : p.Placed text)
    (hends : Ends p.body (.placeholder ph)) {value : Params → Option (Option Json)} {base n : ℕ}
    (htakes : Takes value (base + n))
    (hcount : Nameless text → signs p.before = signs clause.before + n) :
    Binds text p ph value (base + n) ((placeholders clause.before).length = base) := by
  refine binds_of_takes hplaced hends htakes fun hname => ?_
  rw [hcount hname, length_placeholders (hclause.nameless_before hname)]
  omega

/-- The placeholders in terms are those that a binder takes for them. -/
theorem marks_terms {p : Piece} {terms : List Piece} (hterms : ∀ e ∈ terms, e ∈ p.terms)
    (h : ∀ e ∈ terms, Nameless e.body) :
    Piece.total terms = (terms.map fun e => e.condition.taken).sum := by
  rw [Piece.total]
  refine congrArg List.sum (List.map_congr_left fun e he => ?_)
  exact signs_condition (Piece.getLast?_term (hterms e he)) (h e he)

theorem binds_whereTerm {clause : Piece} (hclause : clause.Placed text) {earlier later : List Piece}
    {term : Piece} {field : String} {op : CompareOp} (hterms : clause.terms = earlier ++ term :: later)
    (hread : term.condition = .compare field op (.placeholder ph))
    {value : Params → Option (Option Json)} {base : ℕ}
    (htakes : Takes value (base + (earlier.map fun e => e.condition.taken).sum)) :
    Binds text term ph value (base + (earlier.map fun e => e.condition.taken).sum)
      ((placeholders clause.before).length = base) := by
  have hmem : ∀ e ∈ earlier ++ term :: later, e ∈ clause.terms := fun e he => hterms ▸ he
  have hplaced : ∀ e ∈ earlier ++ term :: later, e.Placed text := fun e he =>
    hclause.terms e (hmem e he)
  have hends : Ends term.body (.placeholder ph) :=
    ends_of_ofText (Piece.getLast?_term (hmem term (by simp))) hread
  refine binds_in_clause hclause (hplaced term (by simp)) hends htakes fun hname => ?_
  have hearlier : ∀ e ∈ earlier, Nameless e.body := fun e he =>
    (hplaced e (List.mem_append_left _ he)).nameless_body hname
  have hcounted := Piece.counted_terms hclause.clean
  rw [hterms] at hcounted
  rw [hcounted.before, marks_terms (fun e he => hmem e (List.mem_append_left _ he)) hearlier]

end RecordShelf.Query

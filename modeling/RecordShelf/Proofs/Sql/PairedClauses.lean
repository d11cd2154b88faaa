import Mathlib.Data.List.DropRight
import RecordShelf.Proofs.Sql.PairedTerms

/-!
# Cutting two texts side by side

Two texts that differ in letter case only where it does not count are cut at the same places, and
their parts differ in the same way. Behind a word that leads in placeholders, behind a separator and
behind an opening parenthesis a part stands by itself, and so do the terms of a condition and the
bodies of the clauses in which names occur.
-/

namespace RecordShelf.Sql
open Text

section
variable {H : List Char → List Char → Prop} {st : ScanState} {before cs ds : List Char}
  {start stop : ℕ} {word : List Char}

/-! ## White space around a part -/

theorem reverse_dropWhile_eq_take (p : Char → Bool) (cs : List Char) :
    (cs.reverse.dropWhile p).reverse = cs.take (cs.reverse.dropWhile p).length := by
  have hprefix : cs.rdropWhile p <+: cs := List.rdropWhile_prefix p cs
  have hlength : (cs.rdropWhile p).length = (cs.reverse.dropWhile p).length := List.length_reverse
  rw [← hlength]
  exact List.prefix_iff_eq_take.1 hprefix

/-- What is left of a text without some characters at its end. -/
theorem SameFrom.dropEnd {p : Char → Bool} (hp : FoldsCase p) (h : SameFrom st before cs ds) :
    SameFrom st before (cs.reverse.dropWhile p).reverse (ds.reverse.dropWhile p).reverse := by
  rw [reverse_dropWhile_eq_take, reverse_dropWhile_eq_take,
    ← (h.alike.reverse.dropWhile hp).length]
  exact h.take _

theorem SameBehind.trimStart (hH : ∀ before cs, Clear before → H before cs)
    (h : SameBehind H cs ds) : SameBehind H (Text.trimStart cs) (Text.trimStart ds) := by
  have hread : Agree (Results Eq (SameBehind H)) (.ok (cs.takeWhile isWhite, Text.trimStart cs))
      (.ok (ds.takeWhile isWhite, Text.trimStart ds)) :=
    Reader.reads_run_behind letterless_isWhite (fun _ => id) hH cs ds h
  cases hread with
  | ok hresult => exact hresult.2

theorem SameFrom.trim (h : SameText cs ds) : SameText (Text.trim cs) (Text.trim ds) :=
  (h.fresh.trimStart fun _ cs hclear => hclear.fresh cs).sameText.dropEnd letterless_isWhite.folds

theorem Apart.take (h : Apart before cs) (n : ℕ) : Apart before (cs.take n) := by
  refine h.imp_left fun hends c hc => hends c ?_
  cases n with
  | zero => exact absurd hc (by simp)
  | succ n => rwa [List.head?_take, if_neg (Nat.succ_ne_zero n)] at hc

theorem SameBehind.take (h : SameBehind Apart cs ds) (n : ℕ) :
    SameBehind Apart (cs.take n) (ds.take n) := by
  obtain ⟨before, hapart, hsame⟩ := h
  exact ⟨before, hapart.take n, hsame.take n⟩

theorem SameBehind.trim (h : SameBehind Apart cs ds) :
    SameBehind Apart (Text.trim cs) (Text.trim ds) := by
  have hstart := h.trimStart fun _ _ hclear => .inr hclear.word
  rw [Text.trim, Text.trim, trimEnd, trimEnd, reverse_dropWhile_eq_take, reverse_dropWhile_eq_take,
    ← (hstart.alike.reverse.dropWhile letterless_isWhite.folds).length]
  exact hstart.take _

/-! ## Keywords -/

/-- What stands behind a keyword. -/
theorem SameBehind.drop_keyword (hletters : word.all Char.isAlpha = true) (hword : word ≠ [])
    (h : SameBehind Apart cs ds) (hfound : findKeyword [word] cs = some (start, stop)) :
    SameBehind Apart (cs.drop stop) (ds.drop stop) ∧
      (word ∈ leadIns → SameText (cs.drop stop) (ds.drop stop)) := by
  obtain ⟨before, hapart, hsame⟩ := h
  have hkeyword : Keyword [word] :=
    ⟨List.cons_ne_nil _ _, List.forall_mem_singleton.2 ⟨hword, hletters⟩⟩
  obtain ⟨u, w, v, hsplit, -, hfront, hoccurs⟩ := exists_occurs_of_findKeyword hkeyword hfound
  obtain ⟨hrun, hw, hlast, hv⟩ := hoccurs.stands
  have hwords : ∀ c ∈ w, isAsciiWord c = true := isAsciiWord_of_letters hletters hw
  have hbefore : EndsWord (u.reverse ++ before) := by
    intro d hd
    rw [List.head?_append, List.head?_reverse] at hd
    cases hu : u.getLast? with
    | some last =>
      rw [hu] at hd
      exact hlast d (hu ▸ hd)
    | none =>
      rw [hu] at hd
      refine hapart.resolve_left (fun hends => ?_) d hd
      obtain rfl := List.getLast?_eq_none_iff.1 hu
      obtain ⟨c, v, rfl⟩ := List.exists_cons_of_ne_nil (l := w) (by rintro rfl; exact hword hw.symm)
      have hc : isAsciiWord c = false := hends c (by rw [hsplit]; rfl)
      exact absurd (hc.symm.trans (hwords c List.mem_cons_self)) (by decide)
  have hdrop : cs.drop stop = v := by
    rw [hsplit, ← List.append_assoc, hfront, List.drop_left]
  have hrest : SameFrom .start (w.reverse ++ (u.reverse ++ before)) v (ds.drop stop) := by
    have hlength : (u ++ w).length = (ds.take stop).length := by
      rw [← (hsame.alike.take stop).length, hsplit, ← List.append_assoc, hfront, List.take_left]
    rw [hsplit, ← List.append_assoc, ← List.take_append_drop stop ds,
      SameFrom.append_iff hlength] at hsame
    rw [hoccurs.run hkeyword, List.reverse_append, List.append_assoc] at hsame
    exact hsame.2
  rw [hdrop]
  refine ⟨⟨_, .inl hv, hrest⟩, fun hmem => ?_⟩
  exact hrest.rebase (fresh_leadIn (hw ▸ hmem) hwords hbefore hv)

/-! ## Terms and items -/

theorem SameFrom.conjuncts {fuel : ℕ} (h : SameText cs ds) :
    List.Forall₂ SameText (conjuncts fuel cs) (conjuncts fuel ds) := by
  induction fuel generalizing cs ds with
  | zero => exact .cons h .nil
  | succ fuel ih =>
    rw [Sql.conjuncts, Sql.conjuncts, ← h.alike.findKeyword_eq]
    cases hfound : findKeyword andWord cs with
    | none => exact .cons h .nil
    | some place =>
      obtain ⟨start, stop⟩ := place
      have hrest := (h.apart.drop_keyword (by decide) (by decide) hfound).2 (by decide)
      exact .cons (h.take start) (ih hrest)

theorem SameFrom.splitConjunction (h : SameText cs ds) :
    List.Forall₂ SameText (splitConjunction cs) (splitConjunction ds) := by
  have hempty : ∀ ⦃es fs⦄, SameText es fs → ((!es.isEmpty) = true ↔ (!fs.isEmpty) = true) :=
    fun es fs hes => by rw [hes.alike.isEmpty]
  have hterms : List.Forall₂ SameText ((Sql.conjuncts cs.length cs).map Text.trim)
      ((Sql.conjuncts cs.length ds).map Text.trim) := by
    rw [List.forall₂_map_left_iff, List.forall₂_map_right_iff]
    exact h.conjuncts.imp fun _ _ => SameFrom.trim
  rw [Sql.splitConjunction, Sql.splitConjunction, ← h.alike.length]
  exact List.rel_filter hempty hterms

theorem cutAt_same {sep : Char} (hsep : Calm sep) (hcase : Letterless (· == sep))
    (hword : isAsciiWord sep = false) (hsane : st.Sane) (hst : st.Known)
    (h : SameFrom st before cs ds) :
    ∃ piece piece' pieces pieces', cutAt sep (markFrom st cs) = piece :: pieces ∧
      cutAt sep (markFrom st ds) = piece' :: pieces' ∧ SameFrom st before piece piece' ∧
        List.Forall₂ SameText pieces pieces' := by
  have hcolon : sep ≠ ':' := by
    rintro rfl
    exact absurd hsep.sign (by decide)
  induction cs generalizing st before ds with
  | nil =>
    rw [h.alike.nil_left]
    exact ⟨[], [], [], [], rfl, rfl, trivial, .nil⟩
  | cons c cs ih =>
    obtain ⟨d, ds, rfl, hc, -⟩ := h.alike.cons_left
    obtain ⟨piece, piece', pieces, pieces', hcs, hds, hfirst, hrest⟩ :=
      ih (hsane.step c) (hst.step c) h.2
    have hmatch : c = sep ↔ d = sep := eq_iff_of_letterless hcase hc
    rw [markFrom, markFrom, ← hst.step_congr hc, cutAt, cutAt, hcs, hds]
    by_cases hcut : c = sep ∧ Marked.isTop (c, (st.step c).1) = true
    · obtain ⟨rfl, htop⟩ := hcut
      obtain rfl := ScanState.eq_start_of_top hsane hsep (beq_iff_eq.1 htop)
      rw [ScanState.step_of_calm rfl hsep] at hfirst
      exact ⟨[], [], _, _, if_pos ⟨rfl, htop⟩, if_pos ⟨hmatch.1 rfl, htop⟩, trivial,
        .cons (hfirst.rebase ((Clear.cons hword hcolon before).fresh piece)) hrest⟩
    · have hcut' : ¬(d = sep ∧ Marked.isTop (d, (st.step c).1) = true) :=
        fun h => hcut ⟨hmatch.2 h.1, h.2⟩
      exact ⟨_, _, _, _, if_neg hcut, if_neg hcut', ⟨h.1, hfirst⟩, hrest⟩

/-- The items of a list. -/
theorem SameFrom.items (h : SameText cs ds) :
    List.Forall₂ SameText (splitTopLevel ',' cs) (splitTopLevel ',' ds) := by
  have hcalm : Calm ',' := by constructor <;> decide
  obtain ⟨piece, piece', pieces, pieces', hcs, hds, hfirst, hrest⟩ :=
    cutAt_same hcalm (by decide) (by decide) ScanState.sane_start ScanState.known_start h
  rw [splitTopLevel, splitTopLevel, mark, mark, hcs, hds, List.forall₂_map_left_iff,
    List.forall₂_map_right_iff]
  exact (List.Forall₂.cons hfirst hrest).imp fun _ _ => SameFrom.trim

/-- What stands between parentheses stands by itself. -/
theorem SameFrom.parenthesized? (h : SameText cs ds) :
    Option.Rel SameText (parenthesized? cs) (parenthesized? ds) := by
  cases cs with
  | nil =>
    rw [h.alike.nil_left]
    exact .none
  | cons c cs =>
    obtain ⟨d, ds, rfl, hc, hcs⟩ := h.alike.cons_left
    have hmatch : c = '(' ↔ d = '(' := eq_iff_of_letterless (by decide) hc
    by_cases hopen : c = '('
    · obtain rfl := hmatch.1 hopen
      subst hopen
      have hopened : (ScanState.start.step '(').2.SameQuote .start := ⟨rfl, rfl⟩
      have hinside : SameFrom .start ['('] cs ds := h.2.of_sameQuote hopened
      have hsame : SameText cs ds :=
        hinside.rebase ((Clear.cons (by decide) (by decide) []).fresh cs)
      have hlast : cs.getLast? = some ')' ↔ ds.getLast? = some ')' := by
        rw [← List.head?_reverse, ← List.head?_reverse]
        exact hcs.reverse.head?_iff (by decide)
      simp only [Sql.parenthesized?, hlast]
      split_ifs
      · rw [List.dropLast_eq_take, List.dropLast_eq_take, ← hcs.length]
        exact .some (hsame.take _)
      · exact .none
    · have hnone : ∀ {e : Char} (es : List Char), e ≠ '(' →
          Sql.parenthesized? (e :: es) = none := by
        intro e es he
        rw [Sql.parenthesized?]
        simpa using he
      rw [hnone cs hopen, hnone ds fun heq => hopen (hmatch.2 heq)]
      exact .none

/-! ## Clauses -/

/-- The clauses in which names of placeholders occur. -/
def ClauseName.holdsNames (name : ClauseName) : Prop := ∃ word ∈ leadIns, name.words = [word]

theorem holdsNames_where : ClauseName.where_.holdsNames := ⟨_, by decide, rfl⟩

theorem holdsNames_limit : ClauseName.limit.holdsNames := ⟨_, by decide, rfl⟩

theorem holdsNames_offset : ClauseName.offset.holdsNames := ⟨_, by decide, rfl⟩

/-- The same clause with bodies that differ in letter case, where names occur only where it does not
count. -/
def SameClause (clause clause' : ClauseName × List Char) : Prop :=
  clause.1 = clause'.1 ∧ Alike clause.2 clause'.2 ∧
    (clause.1.holdsNames → SameText clause.2 clause'.2)

theorem sameClause_bodies (h : SameBehind Apart cs ds) {ms : List ClauseMark}
    (hms : ∀ m ∈ ms, findKeyword m.name.words cs = some (m.start, m.stop)) :
    List.Forall₂ SameClause (clauseBodies cs ms) (clauseBodies ds ms) := by
  induction ms with
  | nil => exact .nil
  | cons m ms ih =>
    obtain ⟨hm, hms⟩ := List.forall_mem_cons.1 hms
    have hnext : nextStart cs ms = nextStart ds ms := by
      cases ms with
      | nil => exact h.alike.length
      | cons next ms => rfl
    have hbody : ∀ n, Alike (Text.trim (slice cs m.stop n)) (Text.trim (slice ds m.stop n)) :=
      fun n => ((h.alike.take n).drop m.stop).trim
    refine .cons ⟨rfl, hnext ▸ hbody _, ?_⟩ (ih hms)
    rintro ⟨word, hmem, hwords⟩
    have hall : ∀ word ∈ leadIns, word ≠ [] ∧ word.all Char.isAlpha = true := by decide
    have hname : m.name.words = [word] := hwords
    rw [hname] at hm
    have hrest := (h.drop_keyword (hall word hmem).2 (hall word hmem).1 hm).2 hmem
    dsimp only
    rw [slice, slice, ← hnext, List.drop_take, List.drop_take]
    exact (hrest.take _).trim

theorem rel_find? {α : Type} {R : α → α → Prop} {p : α → Bool} {xs ys : List α}
    (hp : ∀ x y, R x y → p x = p y) (h : List.Forall₂ R xs ys) :
    Option.Rel R (xs.find? p) (ys.find? p) := by
  induction h with
  | nil => exact .none
  | @cons x y xs ys hxy _ ih =>
    rw [List.find?_cons, List.find?_cons, ← hp x y hxy]
    cases p x with
    | true => exact .some hxy
    | false => exact ih

theorem rel_clause (h : SameBehind Apart cs ds) (name : ClauseName) :
    Option.Rel SameClause
      ((Clauses.ofText cs).bodies.find? fun clause => clause.1 = name)
      ((Clauses.ofText ds).bodies.find? fun clause => clause.1 = name) := by
  refine rel_find? (fun x y hxy => by rw [hxy.1]) ?_
  rw [Clauses.ofText, Clauses.ofText, ← h.alike.clauseMarks_eq]
  exact sameClause_bodies h fun m hm => findKeyword_of_mem_clauseMarks hm

theorem rel_body? (h : SameBehind Apart cs ds) (name : ClauseName) :
    Option.Rel Alike ((Clauses.ofText cs).body? name) ((Clauses.ofText ds).body? name) := by
  have hclause := rel_clause h name
  rw [Clauses.body?, Clauses.body?]
  generalize (Clauses.ofText cs).bodies.find? _ = x at hclause ⊢
  generalize (Clauses.ofText ds).bodies.find? _ = y at hclause ⊢
  cases hclause with
  | some hsame => exact .some hsame.2.1
  | none => exact .none

/-- The body of a clause in which names occur stands by itself. -/
theorem rel_body?_same (h : SameBehind Apart cs ds) {name : ClauseName} (hname : name.holdsNames) :
    Option.Rel SameText ((Clauses.ofText cs).body? name) ((Clauses.ofText ds).body? name) := by
  have hclause := rel_clause h name
  have hfound : ∀ clause ∈ (Clauses.ofText cs).bodies.find? fun clause => clause.1 = name,
      clause.1 = name := fun clause hclause => by simpa using List.find?_some hclause
  rw [Clauses.body?, Clauses.body?]
  generalize (Clauses.ofText cs).bodies.find? _ = x at hclause hfound ⊢
  generalize (Clauses.ofText ds).bodies.find? _ = y at hclause ⊢
  cases hclause with
  | some hsame => exact .some (hsame.2.2 (hfound _ rfl ▸ hname))
  | none => exact .none

/-- What precedes the clauses. -/
theorem SameFrom.head (h : SameText cs ds) :
    SameText (Clauses.ofText cs).head (Clauses.ofText ds).head := by
  have hnext : nextStart cs (clauseMarks cs) = nextStart ds (clauseMarks ds) := by
    rw [← h.alike.clauseMarks_eq]
    cases clauseMarks cs with
    | nil => exact h.alike.length
    | cons m ms => rfl
  rw [Clauses.ofText, Clauses.ofText, ← hnext]
  exact (h.take _).trim

end

end RecordShelf.Sql

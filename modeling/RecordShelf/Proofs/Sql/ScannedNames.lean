import Mathlib.Algebra.Order.BigOperators.Group.List
import Mathlib.Algebra.Order.Ring.Nat
import RecordShelf.Proofs.Sql.ScannedPieces
import RecordShelf.Proofs.Sql.TableNames
import RecordShelf.Proofs.Sql.UpdateParts

/-!
# Placeholders as the scanner and as the grammar see them

The grammar takes a run of word characters of any script for a name; the scanner looks for the
placeholders of a whole body and takes ASCII names that do not start with a digit, behind a character
that neither ends a word nor is a colon. The two lists agree exactly where every term of the body
is one on which they agree, and so do the two counts of the placeholders in SET items.
-/

namespace RecordShelf.Sql
open Text

/-- The placeholders of an operand. -/
def Operand.placeholders : Operand → List Placeholder
  | .placeholder p => [p]
  | .literal _ => []

/-- The placeholders that a condition takes params for, in text order. -/
def Condition.placeholders : Condition → List Placeholder
  | .compare _ _ value => value.placeholders
  | .isNull _ _ => []
  | .unread _ ps => ps

theorem Operand.length_placeholders (o : Operand) : o.placeholders.length = o.taken := by
  cases o <;> rfl

/-! ## Where they agree -/

namespace Piece
variable {text : List Char} {p t : Piece}

/-- The name at the end of a piece is one for the scanner too: of ASCII word characters, the first
of them no digit, and with a colon that stands behind no word and no colon. -/
def NamesAs (p : Piece) (name : String) : Prop :=
  placeholderName? name.toList = some name ∧
    ∀ c ∈ (p.before ++ p.body.take (p.body.length - (name.toList.length + 1))).getLast?,
      shadows c = false

/-- A piece holds the same placeholders by itself as in its text: it does not start with a name whose
colon stands behind a word or a colon, and it does not end in a colon that makes a name of the word
behind the piece. -/
structure Detached (text : List Char) (p : Piece) : Prop where
  front : ∀ rest, p.body = ':' :: rest → (∃ c ∈ p.before.getLast?, shadows c = true) →
    placeholderName? rest = none
  back : ∀ u, p.body = u ++ [':'] → (ScanState.run .start u).quote = none →
    (∀ c ∈ (p.before ++ u).getLast?, shadows c = false) → placeholderName? (p.after text) = none

/-- The scanner finds the placeholders that the term of the piece takes. -/
def Agrees (text : List Char) (p : Piece) : Prop :=
  match p.condition with
  | .compare _ _ (.placeholder (.named name)) => p.NamesAs name
  | .unread _ _ => p.Detached text
  | _ => True

end Piece

/-! ## Names -/

section
variable {before : Option Char} {after cs rest : List Char} {name : String} {depth : ℕ}

theorem placeholderName?_eq_some (h : placeholderName? cs = some name) :
    name.toList = cs.takeWhile isAsciiWord := by
  rw [placeholderName?] at h
  split at h
  · exact absurd h (by simp)
  · split_ifs at h
    rw [← Option.some.inj h, String.toList_ofList]

theorem placeholderName?_none (h : EndsWord cs) : placeholderName? cs = none := by
  cases cs with
  | nil => rfl
  | cons c cs =>
    have hc : isAsciiWord c = false := h c rfl
    rw [placeholderName?, List.takeWhile_cons_of_neg (by simp [hc])]

/-- A name does not run on where its last character or the next one is no word character. -/
theorem placeholderName?_append (hne : cs ≠ [])
    (h : (∀ d ∈ cs.getLast?, isAsciiWord d = false) ∨ EndsWord after) :
    placeholderName? (cs ++ after) = placeholderName? cs := by
  have hword : (cs ++ after).takeWhile isAsciiWord = cs.takeWhile isAsciiWord := by
    rcases h with hlast | hafter
    · have hnot : ¬ ∀ c ∈ cs, isAsciiWord c = true := fun hall => by
        have hword := hall _ (List.getLast_mem hne)
        rw [hlast _ (List.getLast?_eq_some_getLast hne)] at hword
        exact absurd hword (by decide)
      rw [List.takeWhile_append, if_neg]
      rw [List.takeWhile_eq_self_iff.symm] at hnot
      exact fun hlength => hnot ((List.takeWhile_prefix isAsciiWord).eq_of_length hlength)
    · have hnone : after.takeWhile isAsciiWord = [] := by
        cases after with
        | nil => rfl
        | cons c after => exact List.takeWhile_cons_of_neg (by simp [hafter c rfl])
      rw [List.takeWhile_append, hnone]
      split_ifs with hlength
      · rw [List.append_nil, (List.takeWhile_prefix isAsciiWord).eq_of_length hlength]
      · rfl
  rw [placeholderName?, placeholderName?, hword]

theorem placeholderAt_colon : placeholderAt before (':', .code depth) rest =
    if before.any shadows then [] else ((placeholderName? rest).map Placeholder.named).toList := by
  cases hshadows : before.any shadows <;> simp [placeholderAt, Marked.isQuoted, hshadows]

theorem placeholderAt_of_ne {c : Char} {m : Mark} (hc : c ≠ ':') (before before' : Option Char)
    (after after' : List Char) :
    placeholderAt before (c, m) after = placeholderAt before' (c, m) after' := by
  simp [placeholderAt, hc]

end

/-! ## Comparing the lists of all terms -/

/-- A name that is the word AND in some case. A colon right before an AND makes one for the scanner,
and no other term can make up for it, as the grammar cuts there. -/
def Placeholder.spellsAnd : Placeholder → Bool
  | .positional => false
  | .named name => name.toList.map Char.toLower == "and".toList

/-- The placeholders of a list that are not the word AND. -/
def plainCount (ps : List Placeholder) : ℕ := ps.countP fun p => !p.spellsAnd

/-- How the placeholders that a term takes differ from those that the scanner finds in it: a plain
one too many, or none and an AND too few, unless they are the same. -/
structure Compares (taken found : List Placeholder) (agrees : Prop) : Prop where
  plainCount_le : plainCount found ≤ plainCount taken
  length_le : plainCount taken = plainCount found → taken.length ≤ found.length
  eq_iff : taken = found ↔ agrees

theorem Compares.of_eq {ps : List Placeholder} {agrees : Prop} (h : agrees) :
    Compares ps ps agrees :=
  ⟨le_rfl, fun _ => le_rfl, iff_of_true rfl h⟩

section
variable {α : Type} {ts : List α}

theorem eq_of_sum_eq {f g : α → ℕ} (hle : ∀ t ∈ ts, f t ≤ g t)
    (hsum : (ts.map f).sum = (ts.map g).sum) : ∀ t ∈ ts, f t = g t := by
  induction ts with
  | nil => exact fun t ht => absurd ht List.not_mem_nil
  | cons s ts ih =>
    obtain ⟨hs, hts⟩ := List.forall_mem_cons.1 hle
    have htail : (ts.map f).sum ≤ (ts.map g).sum := List.sum_le_sum hts
    rw [List.map_cons, List.map_cons, List.sum_cons, List.sum_cons] at hsum
    exact List.forall_mem_cons.2 ⟨by omega, ih hts (by omega)⟩

theorem eq_of_flatMap_eq {β : Type} {f g : α → List β}
    (hlength : ∀ t ∈ ts, (f t).length = (g t).length) (h : ts.flatMap f = ts.flatMap g) :
    ∀ t ∈ ts, f t = g t := by
  induction ts with
  | nil => exact fun t ht => absurd ht List.not_mem_nil
  | cons s ts ih =>
    obtain ⟨hs, hts⟩ := List.forall_mem_cons.1 hlength
    rw [List.flatMap_cons, List.flatMap_cons] at h
    obtain ⟨hfirst, hrest⟩ := List.append_inj h hs
    exact List.forall_mem_cons.2 ⟨hfirst, ih hts hrest⟩

/-- The lists of all terms are equal only where those of each term are. -/
theorem flatMap_eq_iff {taken found : α → List Placeholder} {agrees : α → Prop}
    (h : ∀ t ∈ ts, Compares (taken t) (found t) (agrees t)) :
    ts.flatMap taken = ts.flatMap found ↔ ∀ t ∈ ts, agrees t := by
  constructor
  · intro heq t ht
    have hplain : ∀ t ∈ ts, plainCount (found t) = plainCount (taken t) := by
      refine eq_of_sum_eq (fun t ht => (h t ht).plainCount_le) ?_
      have hcount := congrArg plainCount heq
      rw [plainCount, plainCount, List.countP_flatMap, List.countP_flatMap] at hcount
      exact hcount.symm
    have hlength : ∀ t ∈ ts, (taken t).length = (found t).length := by
      refine eq_of_sum_eq (fun t ht => (h t ht).length_le (hplain t ht).symm) ?_
      have hcount := congrArg List.length heq
      rwa [List.length_flatMap, List.length_flatMap] at hcount
    exact (h t ht).eq_iff.1 (eq_of_flatMap_eq hlength heq t ht)
  · exact fun hagrees => List.flatMap_congr fun t ht => (h t ht).eq_iff.2 (hagrees t ht)

end

/-! ## One term -/

namespace Piece
variable {text : List Char} {p t : Piece}

/-- Behind quiet text a scan stands as at the start. -/
theorem scanned_behind_quiet {w mid : List Char} (hbody : p.body = w ++ mid) (hw : Quiet w) :
    p.scanned text = startsIn .start (p.before ++ w).getLast? (p.after text) mid := by
  rw [scanned, hbody, startsIn_append, startsIn_eq_nil hw.signs, hw.run, List.getLast?_append]
  rfl

/-- A positional placeholder at the end of a term counts for both. -/
theorem scanned_positional {w : List Char} (hbody : p.body = w ++ ['?']) (hw : Quiet w) :
    p.scanned text = [.positional] := by
  rw [scanned_behind_quiet hbody hw]
  rfl

/-- A named one counts for the scanner as far as its name does. -/
theorem scanned_named {w : List Char} {name : String} (hbody : p.body = w ++ ':' :: name.toList)
    (hw : Quiet w) (hne : name.toList ≠ []) (hname : ∀ c ∈ name.toList, isWord c = true)
    (hfence : (∀ d ∈ p.body.getLast?, isAsciiWord d = false) ∨ EndsWord (p.after text)) :
    p.scanned text = if (p.before ++ w).getLast?.any shadows then []
      else ((placeholderName? name.toList).map Placeholder.named).toList := by
  have hlast : p.body.getLast? = name.toList.getLast? := by
    rw [hbody, List.getLast?_append, List.getLast?_cons, List.getLast?_eq_some_getLast hne]
    rfl
  have hstep : ScanState.start.step ':' = (.code 0, .start) := rfl
  have hnone : startsIn .start (some ':') (p.after text) name.toList = [] :=
    startsIn_eq_nil (signsFrom_eq_zero (fun c hc => (calm_of_isWord (hname c hc)).sign) _)
  rw [scanned_behind_quiet hbody hw, startsIn, hstep, hnone, List.append_nil, placeholderAt_colon,
    placeholderName?_append hne (hlast ▸ hfence)]

end Piece

theorem operand_of_condition {body : List Char} {field : String} {op : CompareOp} {o : Operand}
    (hend : ∀ d ∈ body.getLast?, isWhite d = false)
    (h : Reader.whole? .condition body = some (.compare field op o)) :
    ∃ w mid, body = w ++ mid ∧ Quiet w ∧ Reader.operand mid = .ok (o, []) := by
  obtain ⟨w, mid, rfl, hw, hends⟩ := Reader.condition_ok hend (Reader.whole?_eq_some_iff.1 h)
  rcases hends with ⟨_, _, _, hnull, -⟩ | ⟨_, _, _, v, m, hcompare, rfl, hv, ho⟩
  · exact nomatch hnull
  · obtain ⟨-, -, rfl⟩ := Condition.compare.inj hcompare
    exact ⟨w ++ v, m, (List.append_assoc w v m).symm, hw.append hv, ho⟩

theorem named_of_operand {mid rest : List Char} {name : String}
    (h : Reader.operand mid = .ok (.placeholder (.named name), rest)) :
    mid = ':' :: (name.toList ++ rest) ∧ name.toList ≠ [] ∧ ∀ c ∈ name.toList, isWord c = true := by
  rcases Reader.either_ok h with h | h
  · obtain ⟨p, hp, heq⟩ := Reader.map_ok h
    obtain rfl := Operand.placeholder.inj heq
    rcases Reader.either_ok hp with h | h
    · obtain ⟨_, _, _, h⟩ := Reader.bind_ok h
      exact nomatch (Reader.pure_ok h).1
    · obtain ⟨_, mid, hcolon, h⟩ := Reader.bind_ok h
      obtain ⟨word, after, hword, h⟩ := Reader.bind_ok h
      obtain ⟨heq, rfl⟩ := Reader.pure_ok h
      obtain rfl := Placeholder.named.inj heq
      obtain ⟨hne, hall, rfl, -⟩ := Reader.run1_ok_iff.1 hword
      rw [String.toList_ofList]
      exact ⟨Reader.char_ok hcolon, hne, hall⟩
  · obtain ⟨_, _, heq⟩ := Reader.map_ok h
    exact nomatch heq

theorem positional_of_operand {mid rest : List Char}
    (h : Reader.operand mid = .ok (.placeholder .positional, rest)) : mid = '?' :: rest := by
  rcases Reader.operand_ok h with ⟨p, heq, hmid, -⟩ | ⟨_, _, heq, _⟩
  · obtain rfl := Operand.placeholder.inj heq
    exact hmid
  · exact nomatch heq

/-! ### Terms that the grammar cannot read -/

section
variable {before : Option Char} {after cs : List Char}

theorem any_shadows_iff : before.any shadows = true ↔ ∃ c ∈ before, shadows c = true := by
  cases before <;> simp

/-- What the character before a text changes: the name at its very start. -/
theorem startsIn_front (before : Option Char) (cs : List Char) :
    (∃ rest name, cs = ':' :: rest ∧ (∃ c ∈ before, shadows c = true) ∧
      placeholderName? rest = some name ∧
        startsIn .start none [] cs = .named name :: startsIn .start before [] cs) ∨
    (∀ rest, cs = ':' :: rest → (∃ c ∈ before, shadows c = true) → placeholderName? rest = none) ∧
      startsIn .start none [] cs = startsIn .start before [] cs := by
  cases cs with
  | nil => exact Or.inr ⟨fun _ h => absurd h (by simp), rfl⟩
  | cons c rest =>
    by_cases hc : c = ':'
    · subst hc
      have hstep : ScanState.start.step ':' = (.code 0, .start) := rfl
      rw [startsIn, startsIn, hstep, placeholderAt_colon, placeholderAt_colon, List.append_nil]
      cases hshadows : before.any shadows with
      | false =>
        refine Or.inr ⟨fun _ _ hbefore => ?_, rfl⟩
        rw [any_shadows_iff.2 hbefore] at hshadows
        exact absurd hshadows (by decide)
      | true =>
        cases hname : placeholderName? rest with
        | none =>
          refine Or.inr ⟨fun _ h _ => ?_, rfl⟩
          rw [← (List.cons.inj h).2, hname]
        | some name => exact Or.inl ⟨rest, name, rfl, any_shadows_iff.1 hshadows, hname, rfl⟩
    · refine Or.inr ⟨fun _ h _ => absurd (List.cons.inj h).1 hc, ?_⟩
      rw [startsIn, startsIn, placeholderAt_of_ne hc none before]

/-- A colon starts a name where it stands in code, behind a character that does not shadow it. -/
theorem startsIn_colon (st : ScanState) (before : Option Char) (after : List Char) :
    startsIn st before after [':'] =
      if st.quote = none ∧ before.any shadows = false then
        ((placeholderName? after).map Placeholder.named).toList
      else [] := by
  cases hquote : st.quote with
  | some q =>
    have hstep : (st.step ':').1 = .quoted := by simp [ScanState.step, hquote]
    simp [startsIn, hstep, placeholderAt, Marked.isQuoted]
  | none =>
    have hstep : st.step ':' = (.code st.depth, st) := by simp [ScanState.step, hquote]
    rw [startsIn, hstep, placeholderAt_colon, startsIn, List.append_nil, List.nil_append]
    cases before.any shadows <;> simp

/-- A word that ends where two texts meet is the same without the second one. -/
theorem takeWhile_of_fence {d : Char} (h : isAsciiWord d = false ∨ EndsWord after) :
    ([d] ++ after).takeWhile isAsciiWord = ([d] ++ []).takeWhile isAsciiWord := by
  rcases h with hd | hafter
  · simp [hd]
  · cases after with
    | nil => rfl
    | cons c after =>
      have hc : isAsciiWord c = false := hafter c rfl
      simp [List.takeWhile_cons, hc]

/-- What the text behind a text changes: the name at a colon that stands at its very end. -/
theorem startsIn_back (before : Option Char) (hne : cs ≠ [])
    (hfence : (∀ d ∈ cs.getLast?, isAsciiWord d = false) ∨ EndsWord after) :
    (∃ u name, cs = u ++ [':'] ∧ (ScanState.run .start u).quote = none ∧
      (∀ c ∈ u.getLast?.or before, shadows c = false) ∧ placeholderName? after = some name ∧
        startsIn .start before after cs = startsIn .start before [] cs ++ [.named name]) ∨
    (∀ u, cs = u ++ [':'] → (ScanState.run .start u).quote = none →
      (∀ c ∈ u.getLast?.or before, shadows c = false) → placeholderName? after = none) ∧
        startsIn .start before after cs = startsIn .start before [] cs := by
  obtain ⟨u, d, rfl⟩ := (List.eq_nil_or_concat' cs).resolve_left hne
  have hword := takeWhile_of_fence (hfence.imp_left fun hlast => hlast d List.getLast?_concat)
  rw [startsIn_append, startsIn_append, startsIn_congr hword]
  generalize startsIn .start before ([d] ++ []) u = front
  by_cases hd : d = ':'
  · subst hd
    have hclear : (∀ c ∈ u.getLast?.or before, shadows c = false) ↔
        (u.getLast?.or before).any shadows = false := by
      cases u.getLast?.or before <;> simp
    have hend : placeholderName? [] = none := rfl
    rw [startsIn_colon, startsIn_colon, hend]
    by_cases hopen : (ScanState.run .start u).quote = none ∧
        (u.getLast?.or before).any shadows = false
    · rw [if_pos hopen, if_pos hopen]
      cases hname : placeholderName? after with
      | none => exact Or.inr ⟨fun _ _ _ _ => rfl, rfl⟩
      | some name => exact Or.inl ⟨u, name, rfl, hopen.1, hclear.2 hopen.2, rfl, by simp⟩
    · rw [if_neg hopen, if_neg hopen]
      refine Or.inr ⟨fun u' h hquote hshadows => ?_, rfl⟩
      obtain rfl : u = u' := (List.append_inj' h rfl).1
      exact absurd ⟨hquote, hclear.1 hshadows⟩ hopen
  · refine Or.inr ⟨fun u' h => absurd (List.append_inj' h rfl).2 (by simp [hd]), ?_⟩
    rw [startsIn, startsIn, placeholderAt_of_ne hd]
    rfl

end

namespace Piece
variable {text : List Char} {t : Piece}

theorem plainCount_append (ps qs : List Placeholder) :
    plainCount (ps ++ qs) = plainCount ps + plainCount qs := List.countP_append

theorem plainCount_named {name : String} (h : name.toList.map Char.toLower ≠ "and".toList) :
    plainCount [.named name] = 1 := by
  have hplain : (Placeholder.named name).spellsAnd = false := by
    simpa only [Placeholder.spellsAnd, beq_eq_false_iff_ne] using h
  simp [plainCount, hplain]

theorem plainCount_and {name : String} (h : name.toList.map Char.toLower = "and".toList) :
    plainCount [.named name] = 0 := by
  have hand : (Placeholder.named name).spellsAnd = true := by
    simpa only [Placeholder.spellsAnd, beq_iff_eq] using h
  simp [plainCount, hand]

/-- A term has no AND behind a colon in code outside all parentheses. -/
theorem Term.not_and (ht : t.Term text) {u w v : List Char} (hbody : t.body = u ++ ':' :: (w ++ v))
    (hu : ScanState.run .start u = .start) (hv : EndsWord v) :
    w.map Char.toLower ≠ "and".toList := by
  intro hand
  refine ht.noAnd (u ++ [':']) w v ?_ ⟨?_, hand, fun d hd => ?_, hv⟩
  · rw [hbody, List.append_assoc]
    rfl
  · rw [ScanState.run_append, hu]
    rfl
  · rw [List.getLast?_concat] at hd
    obtain rfl := Option.some.inj hd
    decide

theorem Term.fence (ht : t.Term text) :
    (∀ d ∈ t.body.getLast?, isAsciiWord d = false) ∨ EndsWord (t.after text) :=
  ht.fenced.symm.imp_left And.left

theorem compares_shifted {front ps back : List Placeholder} {agrees : Prop}
    (hfront : front = [] ∨ plainCount front = 1) (hback : plainCount back = 0)
    (h : agrees ↔ front = [] ∧ back = []) : Compares (front ++ ps) (ps ++ back) agrees := by
  have hempty : plainCount front = 0 → front = [] := fun hzero =>
    hfront.resolve_right fun hone => absurd (hzero.symm.trans hone) (by decide)
  constructor
  · rw [plainCount_append, plainCount_append, hback]
    omega
  · intro hcount
    rw [plainCount_append, plainCount_append, hback] at hcount
    rw [hempty (by omega), List.nil_append, List.length_append]
    exact Nat.le_add_right _ _
  · rw [h]
    constructor
    · intro heq
      have hcount := congrArg plainCount heq
      rw [plainCount_append, plainCount_append, hback] at hcount
      have hnil := hempty (by omega)
      rw [hnil, List.nil_append] at heq
      exact ⟨hnil, List.self_eq_append_right.1 heq⟩
    · rintro ⟨rfl, rfl⟩
      rw [List.nil_append, List.append_nil]

/-- The name at the start of an unread term is no AND: there the term would have been cut. -/
theorem Term.plain_front (ht : t.Term text) {rest : List Char} {name : String}
    (hbody : t.body = ':' :: rest) (hname : placeholderName? rest = some name) :
    plainCount [.named name] = 1 := by
  refine plainCount_named ?_
  rw [placeholderName?_eq_some hname]
  refine ht.not_and (u := []) (v := rest.dropWhile isAsciiWord) ?_ rfl fun c hc => ?_
  · rw [hbody, List.takeWhile_append_dropWhile]
    rfl
  · have hnot := List.head?_dropWhile_not isAsciiWord rest
    rw [Option.mem_def.1 hc] at hnot
    simpa using hnot

/-- The name behind an unread term is an AND, if there is one. -/
theorem Term.and_back (ht : t.Term text) {name : String}
    (hname : placeholderName? (t.after text) = some name) : plainCount [.named name] = 0 := by
  refine plainCount_and ?_
  rcases ht.fenced with hends | ⟨-, hand⟩
  · exact nomatch (placeholderName?_none hends).symm.trans hname
  · rw [placeholderName?_eq_some hname]
    exact hand

/-- What an unread term holds by itself before what the scanner finds in it. -/
theorem Term.exists_front (ht : t.Term text) : ∃ front,
    startsIn .start none [] t.body = front ++ startsIn .start t.before.getLast? [] t.body ∧
      (front = [] ∨ plainCount front = 1) ∧
        (front = [] ↔ ∀ rest, t.body = ':' :: rest →
          (∃ c ∈ t.before.getLast?, shadows c = true) → placeholderName? rest = none) := by
  rcases startsIn_front t.before.getLast? t.body with
    ⟨rest, name, hbody, hshadow, hname, hsplit⟩ | ⟨hfree, hsame⟩
  · refine ⟨[.named name], hsplit, Or.inr (ht.plain_front hbody hname),
      iff_of_false (by simp) fun hfree => ?_⟩
    exact nomatch (hfree rest hbody hshadow).symm.trans hname
  · exact ⟨[], hsame, Or.inl rfl, iff_of_true rfl hfree⟩

/-- What the scanner finds in an unread term behind what it holds by itself. -/
theorem Term.exists_back (ht : t.Term text) : ∃ back,
    t.scanned text = startsIn .start t.before.getLast? [] t.body ++ back ∧ plainCount back = 0 ∧
      (back = [] ↔ ∀ u, t.body = u ++ [':'] → (ScanState.run .start u).quote = none →
        (∀ c ∈ (t.before ++ u).getLast?, shadows c = false) →
          placeholderName? (t.after text) = none) := by
  have hlast : ∀ u : List Char, (t.before ++ u).getLast? = u.getLast?.or t.before.getLast? :=
    fun u => List.getLast?_append
  simp only [hlast]
  rcases startsIn_back t.before.getLast? ht.nonempty ht.fence with
    ⟨u, name, hbody, hquote, hclear, hname, hsplit⟩ | ⟨hfree, hsame⟩
  · refine ⟨[.named name], hsplit, ht.and_back hname, iff_of_false (by simp) fun hfree => ?_⟩
    exact nomatch (hfree u hbody hquote hclear).symm.trans hname
  · exact ⟨[], by rw [scanned, hsame, List.append_nil], rfl, iff_of_true rfl hfree⟩

theorem Term.compares_unread (ht : t.Term text) :
    Compares (placeholders t.body) (t.scanned text) (t.Detached text) := by
  obtain ⟨front, hfront, hcount, hfree⟩ := ht.exists_front
  obtain ⟨back, hback, hand, hcut⟩ := ht.exists_back
  rw [placeholders_eq, hfront, hback]
  exact compares_shifted hcount hand ⟨fun h => ⟨hfree.2 h.front, hcut.2 h.back⟩,
    fun h => ⟨hfree.1 h.1, hcut.1 h.2⟩⟩

theorem Term.compares_named (ht : t.Term text) {w : List Char} {name : String}
    (hbody : t.body = w ++ ':' :: name.toList) (hw : Quiet w) (hne : name.toList ≠ [])
    (hname : ∀ c ∈ name.toList, isWord c = true) :
    Compares [.named name] (t.scanned text) (t.NamesAs name) := by
  have hplain : plainCount [.named name] = 1 :=
    plainCount_named (ht.not_and (v := []) (by rw [hbody, List.append_nil]) hw.run ends_nil)
  have hfront : t.body.take (t.body.length - (name.toList.length + 1)) = w := by
    rw [hbody, List.length_append, List.length_cons, Nat.add_sub_cancel, List.take_left]
  have hnone : ¬ t.NamesAs name → Compares ([.named name] ++ []) ([] ++ []) (t.NamesAs name) :=
    fun hnot => compares_shifted (Or.inr hplain) rfl (iff_of_false hnot (by simp))
  rw [scanned_named hbody hw hne hname ht.fence]
  split_ifs with hshadows
  · refine hnone fun hnames => ?_
    obtain ⟨c, hc, hshadow⟩ := any_shadows_iff.1 hshadows
    exact absurd (hshadow.symm.trans (hnames.2 c (hfront ▸ hc))) (by decide)
  · cases hfound : placeholderName? name.toList with
    | none => exact hnone fun hnames => nomatch hfound.symm.trans hnames.1
    | some found =>
      have hclear : ∀ c ∈ (t.before ++ w).getLast?, shadows c = false := fun c hc => by
        rw [← Bool.not_eq_true]
        exact fun hshadow => hshadows (any_shadows_iff.2 ⟨c, hc, hshadow⟩)
      refine ⟨?_, fun _ => le_rfl, ?_⟩
      · rw [hplain]
        exact List.countP_le_length
      · have hnames : t.NamesAs name ↔ found = name := by
          rw [NamesAs, hfound, hfront]
          exact ⟨fun h => Option.some.inj h.1, fun h => ⟨congrArg some h, hclear⟩⟩
        rw [hnames]
        constructor
        · intro heq
          exact (Placeholder.named.inj (List.cons.inj heq).1).symm
        · rintro rfl
          rfl

theorem Term.compares (ht : t.Term text) :
    Compares t.condition.placeholders (t.scanned text) (t.Agrees text) := by
  have hquiet : signs t.body = 0 → Compares [] (t.scanned text) True := fun hsigns => by
    rw [scanned_of_quiet hsigns]
    exact .of_eq trivial
  rw [Agrees, condition, Condition.ofText]
  cases hread : Reader.whole? .condition t.body with
  | none => exact ht.compares_unread
  | some c =>
    rw [Option.getD_some]
    rcases ends_condition ht.trimmed hread with ⟨_, _, rfl, hnull⟩ | ⟨field, op, o, rfl, hends⟩
    · exact hquiet hnull.signs
    · cases o with
      | literal l =>
        cases hends with
        | literal _ hbody => exact hquiet hbody.signs
      | placeholder p =>
        obtain ⟨w, mid, hbody, hw, hoperand⟩ := operand_of_condition ht.trimmed hread
        cases p with
        | positional =>
          rw [positional_of_operand hoperand] at hbody
          rw [scanned_positional hbody hw]
          exact .of_eq trivial
        | named name =>
          obtain ⟨rfl, hne, hname⟩ := named_of_operand hoperand
          rw [List.append_nil] at hbody
          exact ht.compares_named hbody hw hne hname

end Piece

/-! ## SET items -/

theorem shadows_of_isSpacing {c : Char} (h : isSpacing c = true) : shadows c = false := by
  have hword := isAsciiWord_of_isWhite (isWhite_of_isSpacing h)
  have hcolon : c ≠ ':' := fun hc => absurd (hc ▸ h) (by decide)
  simp [shadows, hword, hcolon]

/-- The operand of an assignment stands behind the equals sign or a blank. -/
theorem operand_of_assignment {cs : List Char} {a : Assignment}
    (h : Reader.assignment cs = .ok (a, [])) : ∃ w mid, cs = w ++ mid ∧ Quiet w ∧
      Reader.operand mid = .ok (a.value, []) ∧ ∃ d, w.getLast? = some d ∧ shadows d = false := by
  obtain ⟨column, w₁, _, rfl, hw₁, h⟩ := Reader.takesQuiet_identifier.bind_ok h
  obtain ⟨_, w₂, rest, rfl, hw₂, h⟩ := Reader.TakesQuiet.blanks.bind_ok h
  obtain ⟨_, behind, hequals, h⟩ := Reader.bind_ok h
  obtain ⟨_, mid, hblanks, h⟩ := Reader.bind_ok h
  obtain ⟨value, _, hvalue, h⟩ := Reader.bind_ok h
  obtain ⟨rfl, rfl⟩ := Reader.pure_ok h
  obtain ⟨-, rfl⟩ := Prod.mk.inj (Except.ok.inj hblanks)
  have hspacing : ∀ c ∈ behind.takeWhile isSpacing, isSpacing c = true :=
    fun c hc => List.mem_takeWhile_imp hc
  have hgap : Quiet ('=' :: behind.takeWhile isSpacing) := Quiet.of_calm <|
    List.forall_mem_cons.2 ⟨Reader.calm_equals, fun c hc => calm_of_isSpacing (hspacing c hc)⟩
  refine ⟨w₁ ++ (w₂ ++ '=' :: behind.takeWhile isSpacing), behind.dropWhile isSpacing, ?_,
    hw₁.append (hw₂.append hgap), hvalue, ?_⟩
  · rw [Reader.char_ok hequals]
    simp only [List.append_assoc, List.cons_append, List.takeWhile_append_dropWhile]
  · have hne : '=' :: behind.takeWhile isSpacing ≠ [] := by simp
    refine ⟨('=' :: behind.takeWhile isSpacing).getLast hne, ?_, ?_⟩
    · rw [List.getLast?_append, List.getLast?_append, List.getLast?_eq_some_getLast hne]
      rfl
    · rcases List.mem_cons.1 (List.getLast_mem hne) with hequals | hmem
      · rw [hequals]
        decide
      · exact shadows_of_isSpacing (hspacing _ hmem)

/-- The scanner counts the placeholder of an assignment unless it is a name that it does not know. -/
def Assignment.Counted (a : Assignment) : Prop :=
  ∀ name, a.value = .placeholder (.named name) → (placeholderName? name.toList).isSome = true

namespace Piece
variable {text : List Char} {q : Piece} {a : Assignment}

theorem length_scanned_item (hends : EndsWord (q.after text)) (h : q.assignment? = some a) :
    (q.scanned text).length ≤ a.value.taken ∧
      ((q.scanned text).length = a.value.taken ↔ a.Counted) := by
  obtain ⟨w, mid, hbody, hw, hoperand, d, hlast, hd⟩ :=
    operand_of_assignment (Reader.whole?_eq_some_iff.1 h)
  cases hvalue : a.value with
  | literal l =>
    rw [hvalue] at hoperand
    obtain ⟨_, heq, -⟩ | ⟨l, v, -, hmid, hv⟩ := Reader.operand_ok hoperand
    · exact nomatch heq
    · have hquiet : Quiet q.body := by
        rw [hbody, hmid, List.append_nil]
        exact hw.append hv
      rw [scanned_of_quiet hquiet.signs]
      exact ⟨le_rfl, iff_of_true rfl fun name hnamed => nomatch hvalue.symm.trans hnamed⟩
  | placeholder p =>
    rw [hvalue] at hoperand
    cases p with
    | positional =>
      rw [positional_of_operand hoperand] at hbody
      rw [scanned_positional hbody hw]
      exact ⟨le_rfl, iff_of_true rfl fun name hnamed => nomatch hvalue.symm.trans hnamed⟩
    | named name =>
      obtain ⟨rfl, hne, hname⟩ := named_of_operand hoperand
      rw [List.append_nil] at hbody
      have hclear : (q.before ++ w).getLast?.any shadows = false := by
        rw [List.getLast?_append, hlast]
        exact hd
      have hcounted : a.Counted ↔ (placeholderName? name.toList).isSome = true := by
        constructor
        · exact fun hall => hall name hvalue
        · intro hsome other hother
          obtain rfl : name = other := by
            simpa using hvalue.symm.trans hother
          exact hsome
      rw [scanned_named hbody hw hne hname (Or.inr hends), hclear, hcounted, Operand.taken]
      cases placeholderName? name.toList <;> simp

/-- The placeholders that the item of a piece takes. -/
def itemTaken (q : Piece) : ℕ := (q.assignment?.map fun a => a.value.taken).getD 0

theorem sum_itemTaken (items : List Piece) :
    ((items.filterMap assignment?).map fun a => a.value.taken).sum = (items.map itemTaken).sum := by
  induction items with
  | nil => rfl
  | cons q items ih =>
    rw [List.map_cons, List.sum_cons, ← ih, itemTaken]
    cases hread : q.assignment? with
    | none => simp [hread]
    | some a => simp [hread]

end Piece

/-- Where every item of a SET body can be read, the scanner counts its placeholders rightly exactly
where it knows all names. -/
theorem length_placeholders_items {body : List Char}
    (hread : ∀ q ∈ Piece.split ⟨[], body⟩ ',', q.assignment?.isSome = true) :
    (placeholders body).length =
        (((Piece.split ⟨[], body⟩ ',').filterMap Piece.assignment?).map fun a => a.value.taken).sum ↔
      ∀ a ∈ (Piece.split ⟨[], body⟩ ',').filterMap Piece.assignment?, a.Counted := by
  have hends := Piece.endsWord_split UpdateParts.calm_comma (by decide) body
  rw [← Piece.flatMap_scanned_split UpdateParts.calm_comma, List.length_flatMap, Piece.sum_itemTaken]
  generalize Piece.split ⟨[], body⟩ ',' = items at hread hends
  have hitem : ∀ q ∈ items, ∃ a, q.assignment? = some a ∧
      (q.scanned body).length ≤ q.itemTaken ∧
        ((q.scanned body).length = q.itemTaken ↔ a.Counted) := by
    intro q hq
    obtain ⟨a, ha⟩ := Option.isSome_iff_exists.1 (hread q hq)
    have hlength := Piece.length_scanned_item (hends q hq) ha
    have htaken : q.itemTaken = a.value.taken := by
      rw [Piece.itemTaken, ha]
      rfl
    exact ⟨a, ha, htaken ▸ hlength⟩
  constructor
  · intro hsum a ha
    obtain ⟨q, hq, hqa⟩ := List.mem_filterMap.1 ha
    obtain ⟨b, hb, -, hiff⟩ := hitem q hq
    obtain rfl := Option.some.inj (hb.symm.trans hqa)
    exact hiff.1 (eq_of_sum_eq (fun q hq => (hitem q hq).choose_spec.2.1) hsum q hq)
  · intro hall
    refine congrArg List.sum (List.map_congr_left fun q hq => ?_)
    obtain ⟨a, ha, -, hiff⟩ := hitem q hq
    exact hiff.2 (hall a (List.mem_filterMap.2 ⟨q, hq, ha⟩))

/-! ## Whole bodies -/

/-- Where the scanner and the grammar see the same placeholders. For every WHERE body the conditions
take, in order, exactly the placeholders that the scanner finds in the body if and only if it agrees
with each term: it knows the name of a named operand, whose colon stands behind no word (as in
`LIKE:name`), and neither a colon name right behind an AND starts a term that is kept as text nor a
colon right before an AND ends one. For every UPDATE whose SET items can all be read, the number of
placeholders that its WHERE terms start after is that of the operands in its assignments if and only
if the scanner knows the first character of each of their names. -/
theorem placeholders_agree_iff (body : List Char) (sql : String) :
    ((conditionsOf (some body)).flatMap Condition.placeholders = placeholders body ↔
      ∀ t ∈ Piece.terms ⟨[], body⟩, t.Agrees body) ∧
    ∀ s : Update, parse sql = .ok (.update s) →
      ∃ u, updateParts? sql.toList = some u ∧ u.Of sql.toList s ∧
        ((∀ item ∈ u.items, item.assignment?.isSome = true) →
          (s.setPlaceholders = (s.assignments.map fun a => a.value.taken).sum ↔
            ∀ a ∈ s.assignments, a.Counted)) := by
  constructor
  · have hterms := Piece.map_body_terms ⟨[], body⟩
    rw [conditionsOf, ← hterms, List.flatMap_map, List.flatMap_map, ← Piece.flatMap_scanned_terms]
    exact flatMap_eq_iff fun t ht => (Piece.term_of_mem ht).compares
  · intro s hparse
    obtain ⟨u, hparts, hu⟩ := exists_updateParts hparse
    refine ⟨u, hparts, hu, fun hread => ?_⟩
    have hbodies : u.items.map Piece.body = (Piece.split ⟨[], u.set.body⟩ ',').map Piece.body := by
      rw [UpdateParts.items, Piece.map_body_split, Piece.map_body_split]
    have hreads : ∀ items : List Piece, items.filterMap Piece.assignment? =
        (items.map Piece.body).filterMap (Reader.whole? .assignment) := fun items => by
      rw [List.filterMap_map]
      rfl
    have hassignments : s.assignments =
        (Piece.split ⟨[], u.set.body⟩ ',').filterMap Piece.assignment? := by
      rw [hu.assignments, hreads, hreads, hbodies]
    rw [hu.setPlaceholders, hassignments]
    refine length_placeholders_items fun q hq => ?_
    obtain ⟨item, hitem, hbody⟩ := List.mem_map.1 (hbodies ▸ List.mem_map_of_mem (f := Piece.body) hq)
    have hitem := hread item hitem
    rwa [Piece.assignment?, hbody] at hitem

theorem placeholders_agree_note :
    (∀ t ∈ Piece.terms ⟨[], "a = :who AND b IN (?, :x)".toList⟩,
      t.Agrees "a = :who AND b IN (?, :x)".toList) ∧
    ∃ s, parse "UPDATE notes SET title = ?, done = :done WHERE id = ?" = .ok (.update s) ∧
      ∀ a ∈ s.assignments, a.Counted := by
  let s : Update := ⟨"notes", [⟨"title", .placeholder .positional⟩,
    ⟨"done", .placeholder (.named "done")⟩], 2, [.compare "id" .eq (.placeholder .positional)]⟩
  have hparse : parse "UPDATE notes SET title = ?, done = :done WHERE id = ?" = .ok (.update s) := by
    decide +kernel
  obtain ⟨hbody, hset⟩ := placeholders_agree_iff "a = :who AND b IN (?, :x)".toList
    "UPDATE notes SET title = ?, done = :done WHERE id = ?"
  refine ⟨hbody.1 (by decide +kernel), s, hparse, ?_⟩
  obtain ⟨u, hparts, -, hcount⟩ := hset s hparse
  have hitems : (updateParts? "UPDATE notes SET title = ?, done = :done WHERE id = ?".toList).all
      (fun u => u.items.all fun item => item.assignment?.isSome) = true := by
    decide +kernel
  rw [hparts] at hitems
  exact (hcount (List.all_eq_true.1 hitems)).1 rfl

/-- A name in another script is read as a placeholder and not counted as one. -/
theorem placeholders_disagree :
    (conditionsOf (some "a = :имя".toList)).flatMap Condition.placeholders = [.named "имя"] ∧
      placeholders "a = :имя".toList = [] ∧
    ∃ s, parse "UPDATE t SET a = :имя" = .ok (.update s) ∧
      s.assignments = [⟨"a", .placeholder (.named "имя")⟩] ∧ s.setPlaceholders = 0 :=
  ⟨by decide +kernel, by decide +kernel, ⟨"t", [⟨"a", .placeholder (.named "имя")⟩], 0, []⟩,
    by decide +kernel, rfl, rfl⟩

end RecordShelf.Sql

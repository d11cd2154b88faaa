import RecordShelf.Proofs.Query.FoundByValue

/-!
# What a LIKE pattern matches

A pattern is cut at its percent signs, and it matches a text if its segments stand in some piece of
the text one after the other, with a gap between any two that has no line feed. The search keeps all
places that a match can have come to; what one character of the pattern does to them is shown first,
and the whole pattern by induction along its characters.
-/

namespace RecordShelf.Query

namespace Like
variable {pattern text before after piece : List Char} {reach : Reach} {c : Char}

/-- Segments with a gap after each but the last. -/
def weave : List (List Char) → List (List Char) → List Char
  | segment :: segments, gap :: gaps => segment ++ gap ++ weave segments gaps
  | segments, _ => segments.flatten

/-- Some piece of a text is made of the segments of a pattern, with gaps between them. -/
def Occurs (pattern text : List Char) : Prop :=
  ∃ gaps : List (List Char), gaps.length + 1 = (pattern.splitOn '%').length ∧
    (∀ gap ∈ gaps, '\n' ∉ gap) ∧ weave (pattern.splitOn '%') gaps <:+: text

/-- The runs of characters that one character of a pattern stands for. -/
def StandsFor (c : Char) (run : List Char) : Prop := if c = '%' then '\n' ∉ run else run = [c]

/-- A piece of text that a pattern matches from end to end. -/
def Covers : List Char → List Char → Prop
  | [], piece => piece = []
  | c :: pattern, piece => ∃ run rest, piece = run ++ rest ∧ StandsFor c run ∧ Covers pattern rest

/-! ## Segments and gaps -/

theorem splitOn_cons (c : Char) (pattern : List Char) : (c :: pattern).splitOn '%' =
    if c = '%' then [] :: pattern.splitOn '%'
    else (pattern.splitOn '%').modifyHead (c :: ·) := by
  simp only [List.splitOn_eq_splitOnP, List.splitOnP_cons_eq_if_modifyHead, beq_iff_eq]

theorem weave_modifyHead {segments : List (List Char)} (h : segments ≠ []) (c : Char)
    (gaps : List (List Char)) :
    weave (segments.modifyHead (c :: ·)) gaps = c :: weave segments gaps := by
  obtain ⟨segment, segments, rfl⟩ := List.exists_cons_of_ne_nil h
  cases gaps <;> rfl

theorem covers_iff_weave : Covers pattern piece ↔
    ∃ gaps : List (List Char), gaps.length + 1 = (pattern.splitOn '%').length ∧
      (∀ gap ∈ gaps, '\n' ∉ gap) ∧ piece = weave (pattern.splitOn '%') gaps := by
  induction pattern generalizing piece with
  | nil =>
    constructor
    · rintro rfl
      exact ⟨[], rfl, fun _ h => absurd h List.not_mem_nil, rfl⟩
    · rintro ⟨gaps, hlength, -, rfl⟩
      obtain rfl : gaps = [] := List.length_eq_zero_iff.1 (Nat.succ.inj hlength)
      rfl
  | cons c pattern ih =>
    rw [splitOn_cons, Covers]
    simp only [StandsFor]
    split_ifs with hc
    · constructor
      · rintro ⟨run, rest, rfl, hrun, hrest⟩
        obtain ⟨gaps, hlength, hgaps, rfl⟩ := ih.1 hrest
        exact ⟨run :: gaps, congrArg Nat.succ hlength, List.forall_mem_cons.2 ⟨hrun, hgaps⟩, rfl⟩
      · rintro ⟨gaps, hlength, hgaps, rfl⟩
        -- A percent sign starts a new segment, so there is at least one gap.
        cases gaps with
        | nil =>
          exact absurd (Nat.succ.inj hlength).symm
            (List.length_pos_of_ne_nil (List.splitOnP_ne_nil _ _)).ne'
        | cons run gaps =>
          obtain ⟨hrun, hgaps⟩ := List.forall_mem_cons.1 hgaps
          exact ⟨run, _, rfl, hrun, ih.2 ⟨gaps, Nat.succ.inj hlength, hgaps, rfl⟩⟩
    · have hsegments : pattern.splitOn '%' ≠ [] := List.splitOnP_ne_nil _ _
      simp only [List.length_modifyHead, weave_modifyHead hsegments]
      constructor
      · rintro ⟨run, rest, rfl, rfl, hrest⟩
        obtain ⟨gaps, hlength, hgaps, rfl⟩ := ih.1 hrest
        exact ⟨gaps, hlength, hgaps, rfl⟩
      · rintro ⟨gaps, hlength, hgaps, rfl⟩
        exact ⟨[c], _, rfl, rfl, ih.2 ⟨gaps, hlength, hgaps, rfl⟩⟩

theorem occurs_iff_covers :
    Occurs pattern text ↔ ∃ piece, piece <:+: text ∧ Covers pattern piece := by
  simp only [covers_iff_weave]
  constructor
  · rintro ⟨gaps, hlength, hgaps, hinfix⟩
    exact ⟨_, hinfix, gaps, hlength, hgaps, rfl⟩
  · rintro ⟨_, hinfix, gaps, hlength, hgaps, rfl⟩
    exact ⟨gaps, hlength, hgaps, hinfix⟩

/-- A pattern is matched character by character, and so from its end as well. -/
theorem covers_concat : Covers (pattern ++ [c]) piece ↔
    ∃ first run, piece = first ++ run ∧ Covers pattern first ∧ StandsFor c run := by
  induction pattern generalizing piece with
  | nil =>
    constructor
    · rintro ⟨run, rest, rfl, hrun, rfl⟩
      exact ⟨[], run, List.append_nil _, rfl, hrun⟩
    · rintro ⟨first, run, rfl, rfl, hrun⟩
      exact ⟨run, [], (List.append_nil _).symm, hrun, rfl⟩
  | cons d pattern ih =>
    constructor
    · rintro ⟨start, rest, rfl, hstart, hrest⟩
      obtain ⟨first, run, rfl, hfirst, hrun⟩ := ih.1 hrest
      exact ⟨start ++ first, run, (List.append_assoc _ _ _).symm,
        ⟨start, first, rfl, hstart, hfirst⟩,
        hrun⟩
    · rintro ⟨_, run, rfl, ⟨start, first, rfl, hstart, hfirst⟩, hrun⟩
      exact ⟨start, first ++ run, List.append_assoc _ _ _, hstart,
        ih.2 ⟨first, run, rfl, hfirst, hrun⟩⟩

/-! ## The search -/

/-- The place behind some part of the text is marked. -/
def Marked (reach : Reach) (before : List Char) : Prop := reach[before.length]? = some true

theorem marked_cons_nil {first : Bool} : Marked (first :: reach) [] ↔ first = true := by
  rw [Marked, List.length_nil, List.getElem?_cons_zero, Option.some.injEq]

theorem marked_cons_cons {first : Bool} {d : Char} :
    Marked (first :: reach) (d :: before) ↔ Marked reach before := by
  rw [Marked, Marked, List.length_cons, List.getElem?_cons_succ]

/-- A character moves every mark over itself. -/
theorem marked_step (hlength : reach.length = text.length + 1) (htext : text = before ++ after) :
    Marked (step c text reach) before ↔ ∃ first, before = first ++ [c] ∧ Marked reach first := by
  rcases List.eq_nil_or_concat' before with rfl | ⟨first, d, rfl⟩
  · rw [step, marked_cons_nil]
    refine iff_of_false Bool.false_ne_true ?_
    rintro ⟨first, hfirst, -⟩
    exact absurd hfirst (by simp)
  · have hd : text[first.length]? = some d := by simp [htext]
    obtain ⟨mark, hmark⟩ : ∃ mark, reach[first.length]? = some mark := by
      refine ⟨_, List.getElem?_eq_getElem ?_⟩
      rw [hlength, htext]
      simp only [List.length_append, List.length_singleton]
      omega
    simp only [Marked, step, List.length_append, List.length_singleton, List.getElem?_cons_succ,
      List.getElem?_zipWith, hmark, hd, Option.some.injEq, Bool.and_eq_true, beq_iff_eq]
    constructor
    · rintro ⟨rfl, rfl⟩
      exact ⟨first, rfl, hmark⟩
    · rintro ⟨other, heq, hother⟩
      obtain ⟨rfl, hdc⟩ := List.append_inj' heq rfl
      exact ⟨Option.some.inj (hmark.symm.trans hother), List.singleton_inj.1 hdc⟩

theorem marked_spread_nil {carried mark : Bool} :
    Marked (spread carried text (mark :: reach)) [] ↔ mark = true ∨ carried = true := by
  rw [← Bool.or_eq_true]
  cases text <;> exact marked_cons_nil

theorem marked_spread_cons {carried mark : Bool} {d : Char} :
    Marked (spread carried (d :: text) (mark :: reach)) (d :: before) ↔
      Marked (spread ((mark || carried) && d != '\n') text reach) before := marked_cons_cons

/-- Marks spread to the right over everything but line feeds. -/
theorem marked_spread {carried : Bool} (hlength : reach.length = text.length + 1)
    (htext : text = before ++ after) : Marked (spread carried text reach) before ↔
      (carried = true ∧ '\n' ∉ before) ∨
        ∃ first run, before = first ++ run ∧ '\n' ∉ run ∧ Marked reach first := by
  induction before generalizing text reach carried with
  | nil =>
    obtain ⟨mark, reach, rfl⟩ := List.exists_cons_of_length_eq_add_one hlength
    rw [marked_spread_nil, or_comm]
    refine or_congr ⟨fun h => ⟨h, List.not_mem_nil⟩, And.left⟩ ⟨fun h => ?_, ?_⟩
    · exact ⟨[], [], rfl, List.not_mem_nil, marked_cons_nil.2 h⟩
    · rintro ⟨first, run, hnil, -, hfirst⟩
      obtain ⟨rfl, -⟩ := List.append_eq_nil_iff.1 hnil.symm
      exact marked_cons_nil.1 hfirst
  | cons d before ih =>
    obtain ⟨mark, reach, rfl⟩ := List.exists_cons_of_length_eq_add_one hlength
    subst htext
    have hrest : reach.length = (before ++ after).length + 1 := Nat.succ.inj hlength
    rw [List.cons_append, marked_spread_cons, ih hrest rfl]
    simp only [Bool.and_eq_true, Bool.or_eq_true, bne_iff_ne, ne_eq, eq_comm (a := d)]
    constructor
    · rintro (⟨⟨hmark | hcarried, hd⟩, hbefore⟩ | ⟨first, run, rfl, hrun, hfirst⟩)
      · exact Or.inr ⟨[], d :: before, rfl, List.not_mem_cons_of_ne_of_not_mem hd hbefore,
          marked_cons_nil.2 hmark⟩
      · exact Or.inl ⟨hcarried, List.not_mem_cons_of_ne_of_not_mem hd hbefore⟩
      · exact Or.inr ⟨d :: first, run, rfl, hrun, marked_cons_cons.2 hfirst⟩
    · rintro (⟨hcarried, hbefore⟩ | ⟨first, run, hsplit, hrun, hfirst⟩)
      · obtain ⟨hd, hbefore⟩ := List.ne_and_not_mem_of_not_mem_cons hbefore
        exact Or.inl ⟨⟨Or.inr hcarried, hd⟩, hbefore⟩
      · cases first with
        | nil =>
          obtain rfl : d :: before = run := hsplit
          obtain ⟨hd, hbefore⟩ := List.ne_and_not_mem_of_not_mem_cons hrun
          exact Or.inl ⟨⟨Or.inl (marked_cons_nil.1 hfirst), hd⟩, hbefore⟩
        | cons e first =>
          obtain ⟨rfl, rfl⟩ := List.cons.inj hsplit
          exact Or.inr ⟨first, run, rfl, hrun, marked_cons_cons.1 hfirst⟩

/-- One character of the pattern takes a match on over what it stands for. -/
theorem marked_advance (hlength : reach.length = text.length + 1) (htext : text = before ++ after) :
    Marked (advance text reach c) before ↔
      ∃ first run, before = first ++ run ∧ StandsFor c run ∧ Marked reach first := by
  rw [advance]
  simp only [StandsFor]
  split_ifs with hc
  · rw [marked_spread hlength htext]
    simp
  · rw [marked_step hlength htext]
    simp

theorem length_spread (hlength : reach.length = text.length + 1) (carried : Bool) :
    (spread carried text reach).length = text.length + 1 := by
  obtain ⟨mark, reach, rfl⟩ := List.exists_cons_of_length_eq_add_one hlength
  induction text generalizing carried mark reach with
  | nil => rfl
  | cons d text ih =>
    obtain ⟨next, reach, rfl⟩ := List.exists_cons_of_length_eq_add_one (Nat.succ.inj hlength)
    exact congrArg Nat.succ (ih _ next reach (Nat.succ.inj hlength))

theorem length_advance (hlength : reach.length = text.length + 1) (c : Char) :
    (advance text reach c).length = text.length + 1 := by
  rw [advance]
  split_ifs
  · exact length_spread hlength false
  · rw [step, List.length_cons, List.length_zipWith, hlength]
    omega

/-- The marks when a pattern has been read: a match of it can end there. -/
structure Reads (pattern text : List Char) (reach : Reach) : Prop where
  length : reach.length = text.length + 1
  marked : ∀ {before after}, text = before ++ after →
    (Marked reach before ↔ ∃ start piece, before = start ++ piece ∧ Covers pattern piece)

theorem Reads.advance (h : Reads pattern text reach) (c : Char) :
    Reads (pattern ++ [c]) text (advance text reach c) := by
  refine ⟨length_advance h.length c, fun {before after} htext => ?_⟩
  rw [marked_advance h.length htext]
  constructor
  · rintro ⟨first, run, rfl, hrun, hfirst⟩
    rw [List.append_assoc] at htext
    obtain ⟨start, piece, rfl, hpiece⟩ := (h.marked htext).1 hfirst
    exact ⟨start, piece ++ run, List.append_assoc _ _ _,
      covers_concat.2 ⟨piece, run, rfl, hpiece, hrun⟩⟩
  · rintro ⟨start, _, rfl, hcovers⟩
    obtain ⟨piece, run, rfl, hpiece, hrun⟩ := covers_concat.1 hcovers
    refine ⟨start ++ piece, run, (List.append_assoc _ _ _).symm, hrun, ?_⟩
    rw [← List.append_assoc, List.append_assoc] at htext
    exact (h.marked htext).2 ⟨start, piece, rfl, hpiece⟩

theorem Reads.foldl {first : List Char} (h : Reads first text reach) (pattern : List Char) :
    Reads (first ++ pattern) text (pattern.foldl (Like.advance text) reach) := by
  induction pattern generalizing first reach with
  | nil => rwa [List.append_nil]
  | cons c pattern ih =>
    rw [List.foldl_cons, ← List.singleton_append, ← List.append_assoc]
    exact ih (h.advance c)

/-- A match may start anywhere. -/
theorem reads_nil (text : List Char) : Reads [] text (List.replicate (text.length + 1) true) := by
  refine ⟨List.length_replicate, fun {before after} htext => ?_⟩
  refine iff_of_true ?_ ⟨before, [], (List.append_nil _).symm, rfl⟩
  rw [Marked, List.getElem?_replicate, if_pos]
  rw [htext, List.length_append]
  omega

theorem search_iff_covers : search pattern text = true ↔
    ∃ piece, piece <:+: text ∧ Covers pattern piece := by
  have hreads : Reads pattern text
      (pattern.foldl (advance text) (List.replicate (text.length + 1) true)) :=
    (reads_nil text).foldl pattern
  rw [search, List.any_eq_true]
  constructor
  · rintro ⟨_, hmem, rfl⟩
    obtain ⟨i, hi, hmark⟩ := List.mem_iff_getElem.1 hmem
    have hsplit : text = text.take i ++ text.drop i := (List.take_append_drop i text).symm
    have hi' : (text.take i).length = i := by
      rw [List.length_take]
      have := hreads.length
      omega
    obtain ⟨start, piece, hbefore, hpiece⟩ := (hreads.marked hsplit).1 (by
      rw [Marked, hi', List.getElem?_eq_getElem hi, hmark])
    exact ⟨piece, ⟨start, text.drop i, by rw [← hbefore, ← hsplit]⟩, hpiece⟩
  · rintro ⟨piece, ⟨start, rest, rfl⟩, hpiece⟩
    have hmark := (hreads.marked rfl).2 ⟨start, piece, rfl, hpiece⟩
    exact ⟨true, List.mem_of_getElem? hmark, rfl⟩

/-- The search finds a pattern exactly where its segments stand with gaps between them. -/
theorem search_iff_occurs : search pattern text = true ↔ Occurs pattern text := by
  rw [search_iff_covers, occurs_iff_covers]

/-! ## Percent signs at the ends, and none at all -/

/-- A match may start anywhere, so a gap before it adds nothing. -/
theorem search_percent_cons (pattern text : List Char) :
    search ('%' :: pattern) text = search pattern text := by
  rw [Bool.eq_iff_iff, search_iff_covers, search_iff_covers]
  constructor
  · rintro ⟨_, hinfix, run, rest, rfl, -, hrest⟩
    exact ⟨rest, (List.suffix_append run rest).isInfix.trans hinfix, hrest⟩
  · rintro ⟨piece, hinfix, hpiece⟩
    exact ⟨piece, hinfix, [], piece, rfl, List.not_mem_nil, hpiece⟩

theorem search_concat_percent (pattern text : List Char) :
    search (pattern ++ ['%']) text = search pattern text := by
  rw [Bool.eq_iff_iff, search_iff_covers, search_iff_covers]
  constructor
  · rintro ⟨_, hinfix, hcovers⟩
    obtain ⟨first, run, rfl, hfirst, -⟩ := covers_concat.1 hcovers
    exact ⟨first, (List.prefix_append first run).isInfix.trans hinfix, hfirst⟩
  · rintro ⟨piece, hinfix, hpiece⟩
    exact ⟨piece, hinfix, covers_concat.2
      ⟨piece, [], (List.append_nil _).symm, hpiece, List.not_mem_nil⟩⟩

/-- All other characters stand for themselves. -/
theorem covers_iff_eq (h : '%' ∉ pattern) : Covers pattern piece ↔ piece = pattern := by
  induction pattern generalizing piece with
  | nil => exact Iff.rfl
  | cons c pattern ih =>
    obtain ⟨hc, hpattern⟩ := List.ne_and_not_mem_of_not_mem_cons h
    simp only [Covers, StandsFor, if_neg (Ne.symm hc), ih hpattern]
    constructor
    · rintro ⟨_, _, rfl, rfl, rfl⟩
      rfl
    · rintro rfl
      exact ⟨[c], pattern, rfl, rfl, rfl⟩

theorem search_iff_infix (h : '%' ∉ pattern) : search pattern text = true ↔ pattern <:+: text := by
  simp only [search_iff_covers, covers_iff_eq h, exists_eq_right]

end Like

/-! ## Conditions -/

section
open Sql
variable {r : Record} {field : String} {v : Json}

theorem searchable?_of_isScalar (hv : v.IsScalar) :
    FilterRules.searchable? (some v) = some (display v) := by
  cases v with
  | bool | number | string => rfl
  | null | array | object => exact hv.elim

/-- A condition with a pattern searches the text that the field shows. -/
theorem holds_pattern (rules : FilterRules) (hget : r.get? field = some v) (hv : v.IsScalar)
    (pattern : String) (negated : Bool) :
    rules.holds r (.like field (some pattern) negated) =
      (Like.search pattern.toList (display v).toList != negated) := by
  simp only [FilterRules.holds, hget, searchable?_of_isScalar hv]

/-- LIKE holds of a field with a text, a number or a truth value exactly when the pattern occurs in
the text that the field shows, and NOT LIKE exactly when LIKE does not. A pattern without percent
signs has to stand there as it is, and one at either end of a pattern changes nothing. -/
theorem like_iff_occurs (rules : FilterRules) (hget : r.get? field = some v) (hv : v.IsScalar)
    (pattern : String) :
    let holds (op : CompareOp) (pattern : String) : Bool :=
      rules.holds r (.ofCompare field op (some (.string pattern)))
    (holds .like pattern = true ↔ Like.Occurs pattern.toList (display v).toList) ∧
    (holds .notLike pattern = true ↔ ¬holds .like pattern = true) ∧
    ('%' ∉ pattern.toList →
      (holds .like pattern = true ↔ pattern.toList <:+: (display v).toList)) ∧
    ∀ op ∈ [CompareOp.like, .notLike],
      holds op ("%" ++ pattern) = holds op pattern ∧
        holds op (pattern ++ "%") = holds op pattern := by
  intro holds
  have hlike : ∀ pattern, holds .like pattern =
      Like.search pattern.toList (display v).toList := fun pattern =>
    (holds_pattern rules hget hv pattern false).trans (Bool.bne_false _)
  have hnot : ∀ pattern, holds .notLike pattern = !holds .like pattern := fun pattern => by
    rw [hlike]
    exact (holds_pattern rules hget hv pattern true).trans (Bool.bne_true _)
  have hfront : holds .like ("%" ++ pattern) = holds .like pattern := by
    rw [hlike, hlike, String.toList_append]
    exact Like.search_percent_cons _ _
  have hback : holds .like (pattern ++ "%") = holds .like pattern := by
    rw [hlike, hlike, String.toList_append]
    exact Like.search_concat_percent _ _
  refine ⟨by rw [hlike, Like.search_iff_occurs],
    by rw [hnot, Bool.not_eq_true', Bool.not_eq_true], fun hliteral => ?_, fun op hop => ?_⟩
  · rw [hlike, Like.search_iff_infix hliteral]
  · rcases List.mem_pair.1 hop with rfl | rfl
    · exact ⟨hfront, hback⟩
    · rw [hnot, hnot, hnot, hfront, hback]
      exact ⟨rfl, rfl⟩

/-- A note of two lines. -/
def twoLines : Record := [("text", .string "a.b [1]\nb.c%")]

/-- A dot is a dot, a gap may be empty, and no gap goes over the end of a line. -/
theorem like_two_lines : twoLines.get? "text" = some (.string "a.b [1]\nb.c%") ∧
    (Json.string "a.b [1]\nb.c%").IsScalar ∧
    Like.Occurs ".b%[%]".toList "a.b [1]\nb.c%".toList ∧
    ¬Like.Occurs "a%c".toList "a.b [1]\nb.c%".toList := by
  have hget : twoLines.get? "text" = some (.string "a.b [1]\nb.c%") := rfl
  refine ⟨hget, trivial, ?_, fun hoccurs => ?_⟩
  · exact (like_iff_occurs ⟨[], []⟩ hget trivial ".b%[%]").1.1 (by decide +kernel)
  · have hholds := (like_iff_occurs ⟨[], []⟩ hget trivial "a%c").1.2 hoccurs
    exact absurd hholds (by decide +kernel)

end

end RecordShelf.Query

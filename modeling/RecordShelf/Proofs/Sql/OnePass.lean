import Mathlib.Data.List.DropRight
import Mathlib.Data.List.Sort
import RecordShelf.Proofs.Sql.StandingWords
import RecordShelf.Proofs.Sql.Joined
import RecordShelf.Proofs.Sql.Overlaps

/-!
# Rescanning and one pass

A condition is cut at its first AND, and what follows is scanned anew, with no quote open, no
parenthesis open and nothing before it. One pass over the whole condition finds the same places: a
scan comes to what follows an AND as to the start of a text, and no word can start there, since it
would go on from the AND.
-/

namespace RecordShelf.Sql
open Text

/-! ## Places found in one pass -/

/-- Three letters of a text from a position on spell AND in any case, in top-level code, and belong to
no longer word. -/
def andAt (cs : List Char) (i : ℕ) : Bool :=
  ((cs.drop i).take 3).map Char.toLower == "and".toList && (((mark cs).drop i).take 3).all Marked.isTop &&
    (cs.take i).getLast?.all (fun c => !isAsciiWord c) &&
    (cs.drop (i + 3)).head?.all fun c => !isAsciiWord c

/-- Where AND stands in a text. -/
def andPlaces (cs : List Char) : List ℕ := (List.range cs.length).filter (andAt cs)

/-- What stands from a position on between words of three letters. -/
def between (cs : List Char) (start : ℕ) : List ℕ → List (List Char)
  | [] => [cs.drop start]
  | i :: places => slice cs start i :: between cs (i + 3) places

/-- The terms of a conjunction, cut at all places that one scan of the whole text finds. -/
def onePass (cs : List Char) : List (List Char) :=
  ((between cs 0 (andPlaces cs)).map trim).filter fun term => !term.isEmpty

section
variable {u w v x cs : List Char} {i j start stop : ℕ}

theorem mark_drop (cs : List Char) (i : ℕ) :
    (mark cs).drop i = markFrom (ScanState.run .start (cs.take i)) (cs.drop i) := by
  have hmarks : mark cs = mark (cs.take i) ++
      markFrom (ScanState.run .start (cs.take i)) (cs.drop i) := by
    rw [mark, mark, ← markFrom_append, List.take_append_drop]
  by_cases hi : i ≤ cs.length
  · have hlength : (mark (cs.take i)).length = i := by
      rw [mark, length_markFrom, List.length_take, Nat.min_eq_left hi]
    rw [hmarks, List.drop_left' hlength]
  · have hend : cs.length ≤ i := Nat.le_of_lt (Nat.lt_of_not_le hi)
    rw [List.drop_eq_nil_of_le (by rwa [mark, length_markFrom]), List.drop_eq_nil_of_le hend]
    rfl

/-- A scan goes from the AND to what follows it as from the start of a text. -/
theorem Stands.mark (h : Stands "and".toList u w v) :
    Sql.mark (u ++ (w ++ v)) = Sql.mark u ++ (w.map (·, Mark.code 0) ++ Sql.mark v) := by
  rw [Sql.mark, markFrom_append, h.top]
  exact congrArg _ (mark_calm (h.calm (by decide)) v)

theorem occursAt_and_iff : OccursAt andWord cs i j ↔
    ∃ u w v, cs = u ++ (w ++ v) ∧ i = u.length ∧ j = i + 3 ∧ Stands "and".toList u w v := by
  constructor
  · rintro ⟨u, w, v, rfl, rfl, rfl, hoccurs⟩
    have hstands : Stands "and".toList u w v := Occurs.stands hoccurs
    have hlength : w.length = 3 := hstands.length
    exact ⟨u, w, v, rfl, rfl, by rw [List.length_append, hlength], hstands⟩
  · rintro ⟨u, w, v, rfl, rfl, rfl, hstands⟩
    have hlength : w.length = 3 := hstands.length
    exact ⟨u, w, v, rfl, rfl, by rw [List.length_append, hlength], hstands.occurs⟩

theorem andAt_iff : andAt cs i = true ↔ OccursAt andWord cs i (i + 3) := by
  rw [occursAt_and_iff, andAt]
  simp only [Bool.and_eq_true, beq_iff_eq, Option.all_eq_true, Bool.not_eq_true']
  constructor
  · rintro ⟨⟨⟨hletters, htop⟩, hbefore⟩, hbehind⟩
    have hlength : ((cs.drop i).take 3).length = 3 := by
      rw [← List.length_map Char.toLower, hletters]
      rfl
    rw [List.length_take, List.length_drop] at hlength
    have hlead : (cs.take i).length = i := by
      rw [List.length_take]
      omega
    refine ⟨cs.take i, (cs.drop i).take 3, cs.drop (i + 3), ?_, hlead.symm, trivial, ?_, hletters,
      hbefore, hbehind⟩
    · rw [← List.drop_drop, List.take_append_drop, List.take_append_drop]
    · cases hrest : cs.drop i with
      | nil => exact absurd (hrest ▸ hletters) (by simp)
      | cons c rest =>
        rw [mark_drop, hrest, markFrom, List.take_succ_cons, List.all_cons, Bool.and_eq_true] at htop
        rw [hrest, List.take_succ_cons, List.map_cons] at hletters
        exact ScanState.eq_start_of_top (ScanState.sane_start.run _)
          (calm_of_toLower (by decide) (List.cons.inj hletters).1) (beq_iff_eq.1 htop.1)
  · rintro ⟨u, w, v, rfl, rfl, -, h⟩
    have hlength : w.length = 3 := h.length
    have hmarks : ((mark (u ++ (w ++ v))).drop u.length).take 3 = w.map (·, Mark.code 0) := by
      have hlead : (mark u).length = u.length := length_markFrom ..
      rw [h.mark, List.drop_left' hlead, List.take_left' (by rw [List.length_map, hlength])]
    have hbehind : (u ++ (w ++ v)).drop (u.length + 3) = v := by
      rw [← List.append_assoc, List.drop_left' (by rw [List.length_append, hlength])]
    rw [hmarks, hbehind, List.drop_left, List.take_left' hlength, List.take_left, h.letters]
    refine ⟨⟨⟨rfl, ?_⟩, h.before⟩, h.behind⟩
    rw [List.all_map]
    exact List.all_eq_true.2 fun c _ => rfl

theorem mem_andPlaces : i ∈ andPlaces cs ↔ OccursAt andWord cs i (i + 3) := by
  rw [andPlaces, List.mem_filter, andAt_iff, List.mem_range]
  refine and_iff_right_of_imp ?_
  rintro ⟨u, w, v, rfl, rfl, hstop, -⟩
  simp only [List.length_append] at hstop ⊢
  omega

theorem sorted_andPlaces (cs : List Char) : (andPlaces cs).Pairwise (· < ·) :=
  List.pairwise_lt_range.filter _

/-! ## What follows an AND -/

/-- Behind an AND the same words stand in what follows it as in the whole text. -/
theorem occursAt_behind (h : Stands "and".toList u w v) :
    OccursAt andWord (u ++ (w ++ v)) (u.length + 3 + i) (u.length + 3 + i + 3) ↔
      OccursAt andWord v i (i + 3) := by
  have hlength : (u ++ w).length = u.length + 3 := by rw [List.length_append, h.length]; rfl
  have hrun : ScanState.run .start (u ++ w) = .start := h.occurs.run keyword_and
  rw [occursAt_and_iff, occursAt_and_iff]
  constructor
  · rintro ⟨u', w', v', hsplit, hstart, -, hstands⟩
    have hle : (u ++ w).length ≤ u'.length := by
      rw [hlength, ← hstart]
      exact Nat.le_add_right ..
    rw [← List.append_assoc] at hsplit
    obtain ⟨x, rfl, rfl⟩ := exists_append_of_length_le hsplit hle
    refine ⟨x, w', v', rfl, ?_, rfl, ?_, hstands.letters, fun d hd => ?_, hstands.behind⟩
    · rw [List.length_append, hlength] at hstart
      omega
    · have htop := hstands.top
      rwa [ScanState.run_append, hrun] at htop
    · exact hstands.before d (List.mem_getLast?_append_of_mem_getLast? hd)
  · rintro ⟨x, w', v', rfl, rfl, -, hstands⟩
    refine ⟨u ++ w ++ x, w', v', by simp only [List.append_assoc],
      by rw [List.length_append, hlength], rfl, ?_, hstands.letters, fun d hd => ?_, hstands.behind⟩
    · rw [ScanState.run_append, hrun, hstands.top]
    · rw [List.getLast?_append] at hd
      cases hlast : x.getLast? with
      | some last => exact hstands.before d (by rw [hlast] at hd ⊢; exact hd)
      | none =>
        -- At the start of what follows no word can start: the AND would run on into it.
        obtain rfl := List.getLast?_eq_none_iff.1 hlast
        obtain ⟨c, rest, rfl⟩ := List.exists_cons_of_ne_nil
          (List.ne_nil_of_length_eq_add_one (hstands.length : w'.length = 3))
        have hends : isAsciiWord c = false := h.behind c rfl
        exact absurd (hends.symm.trans (hstands.letter (by decide) c List.mem_cons_self)) (by decide)

/-- The places in a text are the first one and those in what follows it. -/
theorem andPlaces_cons (h : Stands "and".toList u w v)
    (hfirst : ∀ i j, OccursAt andWord (u ++ (w ++ v)) i j → u.length ≤ i) :
    andPlaces (u ++ (w ++ v)) = u.length :: (andPlaces v).map (u.length + 3 + ·) := by
  have hhere : OccursAt andWord (u ++ (w ++ v)) u.length (u.length + 3) :=
    occursAt_and_iff.2 ⟨u, w, v, rfl, rfl, rfl, h⟩
  refine (sorted_andPlaces _).eq_of_mem_iff (List.pairwise_cons.2 ⟨fun j hj => ?_, ?_⟩) fun i => ?_
  · obtain ⟨k, -, rfl⟩ := List.mem_map.1 hj
    omega
  · exact List.pairwise_map.2 ((sorted_andPlaces v).imp fun hlt => by omega)
  · rw [mem_andPlaces, List.mem_cons, List.mem_map]
    constructor
    · intro hi
      rcases Nat.eq_or_lt_of_le (hfirst _ _ hi) with heq | hlt
      · exact Or.inl heq.symm
      · have hle : u.length + 3 ≤ i := hhere.disjoint_self keyword_and hi hlt
        obtain ⟨k, rfl⟩ := Nat.exists_eq_add_of_le hle
        exact Or.inr ⟨k, mem_andPlaces.2 ((occursAt_behind h).1 hi), rfl⟩
    · rintro (rfl | ⟨k, hk, rfl⟩)
      · exact hhere
      · exact (occursAt_behind h).2 (mem_andPlaces.1 hk)

theorem andPlaces_eq_nil_iff : andPlaces cs = [] ↔ findKeyword andWord cs = none := by
  constructor
  · intro hnil
    cases hfound : findKeyword andWord cs with
    | none => rfl
    | some place =>
      obtain ⟨hoccurs, -⟩ := occursAt_of_findKeyword keyword_and hfound
      obtain ⟨u, w, v, rfl, hstart, -, hstands⟩ := occursAt_and_iff.1 hoccurs
      have hmem : u.length ∈ andPlaces (u ++ (w ++ v)) :=
        mem_andPlaces.2 (occursAt_and_iff.2 ⟨u, w, v, rfl, rfl, rfl, hstands⟩)
      rw [hnil] at hmem
      exact absurd hmem List.not_mem_nil
  · intro hnone
    refine List.eq_nil_iff_forall_not_mem.2 fun i hi => ?_
    exact findKeyword_ne_none_of_occursAt keyword_and (mem_andPlaces.1 hi) hnone

/-! ## Rescanning -/

/-- Cutting at the first AND as long as there is one, each time in what is left. -/
inductive Rescans : List Char → List (List Char) → Prop
  | done {cs : List Char} (found : findKeyword andWord cs = none) : Rescans cs [cs]
  | next {cs : List Char} {start stop : ℕ} {parts : List (List Char)}
      (found : findKeyword andWord cs = some (start, stop)) (more : Rescans (cs.drop stop) parts) :
      Rescans cs (cs.take start :: parts)

theorem between_append (x v : List Char) (start : ℕ) (places : List ℕ) :
    between (x ++ v) (x.length + start) (places.map (x.length + ·)) = between v start places := by
  induction places generalizing start with
  | nil => rw [List.map_nil, between, between, List.drop_length_add_append]
  | cons i places ih =>
    rw [List.map_cons, between, between, Nat.add_assoc, ih, slice, slice, List.take_length_add_append,
      List.drop_length_add_append]

/-- However a text is rescanned, what comes out are its parts between the places that one scan
finds. -/
theorem Rescans.eq_between {parts : List (List Char)} (h : Rescans cs parts) :
    parts = between cs 0 (andPlaces cs) := by
  induction h with
  | done hnone => rw [andPlaces_eq_nil_iff.2 hnone]; rfl
  | @next cs start stop parts hfound _ ih =>
    obtain ⟨hoccurs, hfirst⟩ := occursAt_of_findKeyword keyword_and hfound
    obtain ⟨u, w, v, rfl, rfl, rfl, hstands⟩ := occursAt_and_iff.1 hoccurs
    have hlength : (u ++ w).length = u.length + 3 := by
      rw [List.length_append, hstands.length]
      rfl
    have hbehind : (u ++ (w ++ v)).drop (u.length + 3) = v := by
      rw [← List.append_assoc, List.drop_left' hlength]
    have hrest := between_append (u ++ w) v 0 (andPlaces v)
    rw [hlength, Nat.add_zero, List.append_assoc] at hrest
    rw [ih, hbehind, andPlaces_cons hstands hfirst, between, hrest]
    rfl

/-- The loop comes to an end, and the fuel is enough for it. -/
theorem rescans_conjuncts {fuel : ℕ} (hfuel : cs.length ≤ fuel) :
    Rescans cs (conjuncts fuel cs) := by
  induction fuel generalizing cs with
  | zero =>
    obtain rfl := List.length_eq_zero_iff.1 (Nat.le_zero.1 hfuel)
    exact .done rfl
  | succ fuel ih =>
    rw [conjuncts]
    cases hfound : findKeyword andWord cs with
    | none => exact .done hfound
    | some place =>
      obtain ⟨start, stop⟩ := place
      refine .next hfound (ih ?_)
      obtain ⟨hoccurs, -⟩ := occursAt_of_findKeyword keyword_and hfound
      obtain ⟨u, w, v, rfl, rfl, rfl, -⟩ := occursAt_and_iff.1 hoccurs
      rw [List.length_drop]
      omega

theorem Rescans.noAnd {parts : List (List Char)} (h : Rescans cs parts) :
    ∀ part ∈ parts, NoAnd part := by
  induction h with
  | done hnone => exact List.forall_mem_singleton.2 (noAnd_of_none hnone)
  | @next cs start stop parts hfound _ ih =>
    obtain ⟨u, w, v, rfl, rfl, -, hstands⟩ := exists_stands_and hfound
    rw [List.take_left]
    exact List.forall_mem_cons.2 ⟨noAnd_before hfound hstands.before, ih⟩

/-! ## Pieces that stay whole -/

theorem trim_trim (cs : List Char) : trim (trim cs) = trim cs := by
  have hstart : trimStart (trim cs) = trim cs := by
    have hprefix : trim cs <+: trimStart cs := List.rdropWhile_prefix isWhite (trimStart cs)
    cases hcs : trim cs with
    | nil => rfl
    | cons c rest =>
      obtain ⟨tail, htail⟩ := hcs ▸ hprefix
      have hc := List.head?_dropWhile_not isWhite cs
      rw [trimStart] at htail
      rw [← htail] at hc
      exact List.dropWhile_cons_of_neg (by simpa using hc)
  have hend : trimEnd (trim cs) = trim cs := List.rdropWhile_idempotent isWhite (trimStart cs)
  rw [trim, hstart, hend]

theorem findKeyword_of_noAnd (h : NoAnd cs) : findKeyword andWord cs = none := by
  cases hfound : findKeyword andWord cs with
  | none => rfl
  | some place =>
    obtain ⟨u, w, v, hsplit, -, -, hstands⟩ := exists_stands_and hfound
    exact absurd hstands (h u w v hsplit)

theorem splitConjunction_of_noAnd (hne : cs ≠ []) (htrim : trim cs = cs) (h : NoAnd cs) :
    splitConjunction cs = [cs] := by
  have hwhole : conjuncts cs.length cs = [cs] := by
    cases cs.length with
    | zero => rfl
    | succ fuel => rw [conjuncts, findKeyword_of_noAnd h]
  rw [splitConjunction, hwhole, List.map_singleton, htrim]
  exact List.filter_cons_of_pos (by simpa using hne)

/-- No separator in top-level code, for a scan that comes to the text in some state. -/
def Uncuttable (sep : Char) (st : ScanState) (cs : List Char) : Prop :=
  ∀ m ∈ markFrom st cs, m.isTop = true → m.1 ≠ sep

theorem cutAt_uncuttable {sep : Char} (h : Uncuttable sep .start cs) : cutAt sep (mark cs) = [cs] := by
  have hcut := cutAt_append h (show cutAt sep [] = [[]] from rfl)
  rwa [List.append_nil, List.append_nil, markFrom_map_fst] at hcut

/-- The first piece is scanned on as the text was, and the others from the start. -/
theorem uncuttable_cutAt {sep : Char} (hsep : Calm sep) {st : ScanState} (hst : st.Sane)
    {piece : List Char} {pieces : List (List Char)} (h : cutAt sep (markFrom st cs) = piece :: pieces) :
    Uncuttable sep st piece ∧ ∀ other ∈ pieces, Uncuttable sep .start other := by
  induction cs generalizing st piece pieces with
  | nil =>
    obtain ⟨rfl, rfl⟩ := List.cons.inj h
    exact ⟨fun m hm => absurd hm List.not_mem_nil, fun other hother => absurd hother List.not_mem_nil⟩
  | cons c cs ih =>
    obtain ⟨next, others, hnext⟩ :=
      List.exists_cons_of_ne_nil (cutAt_ne_nil sep (markFrom (st.step c).2 cs))
    obtain ⟨hfirst, hothers⟩ := ih (hst.step c) hnext
    rw [markFrom] at h
    by_cases hcut : c = sep ∧ Marked.isTop (c, (st.step c).1) = true
    · rw [cutAt_separator hcut.1 hcut.2, hnext] at h
      obtain ⟨rfl, rfl⟩ := List.cons.inj h
      obtain ⟨rfl, htop⟩ := hcut
      obtain rfl := ScanState.eq_start_of_top hst hsep (beq_iff_eq.1 htop)
      have hstep : (ScanState.start.step c).2 = .start := by rw [ScanState.step_of_calm rfl hsep]
      rw [hstep] at hfirst
      exact ⟨fun m hm => absurd hm List.not_mem_nil, List.forall_mem_cons.2 ⟨hfirst, hothers⟩⟩
    · rw [cutAt_plain hcut hnext] at h
      obtain ⟨rfl, rfl⟩ := List.cons.inj h
      refine ⟨?_, hothers⟩
      rw [Uncuttable, markFrom]
      exact List.forall_mem_cons.2 ⟨fun htop hc => hcut ⟨hc, htop⟩, hfirst⟩

theorem Uncuttable.trim {sep : Char} (h : Uncuttable sep .start cs) :
    Uncuttable sep .start (Text.trim cs) := by
  obtain ⟨blank, hsplit, hblank⟩ := Piece.trim_append cs
  have hcalm : ∀ c ∈ cs.takeWhile isWhite, Calm c := fun c hc =>
    calm_of_isWhite (List.mem_takeWhile_imp hc)
  intro m hm
  refine h m ?_
  rw [hsplit]
  have hmarks := mark_calm hcalm (Text.trim cs ++ blank)
  rw [mark] at hmarks
  rw [hmarks, mark, markFrom_append]
  exact List.mem_append_right _ (List.mem_append_left _ hm)

theorem splitTopLevel_of_mem {sep : Char} (hsep : Calm sep) {piece : List Char}
    (h : piece ∈ splitTopLevel sep cs) : splitTopLevel sep piece = [piece] := by
  obtain ⟨part, hpart, rfl⟩ := List.mem_map.1 h
  obtain ⟨first, others, hfirst⟩ := List.exists_cons_of_ne_nil (cutAt_ne_nil sep (mark cs))
  obtain ⟨hhead, htail⟩ := uncuttable_cutAt hsep ScanState.sane_start hfirst
  have hwhole : Uncuttable sep .start part := by
    have hmem : part ∈ first :: others := hfirst ▸ hpart
    rcases List.mem_cons.1 hmem with rfl | hmem
    · exact hhead
    · exact htail part hmem
  rw [splitTopLevel, cutAt_uncuttable hwhole.trim, List.map_singleton, trim_trim]

/-! ## One pass -/

/-- Rescanning comes to an end and gives what one pass over the text gives: the non-empty terms
between all places where AND stands in it. No term holds a further AND, and no piece between commas
a further comma. -/
theorem rescanning_is_one_pass (cs : List Char) :
    (∃ parts, Rescans cs parts ∧
      splitConjunction cs = (parts.map trim).filter fun term => !term.isEmpty) ∧
    (∀ parts, Rescans cs parts → parts = between cs 0 (andPlaces cs)) ∧
    splitConjunction cs = onePass cs ∧
    (∀ term ∈ splitConjunction cs, andPlaces term = [] ∧ splitConjunction term = [term]) ∧
    ∀ piece ∈ splitTopLevel ',' cs, splitTopLevel ',' piece = [piece] := by
  have hrescans : Rescans cs (conjuncts cs.length cs) := rescans_conjuncts (Nat.le_refl _)
  refine ⟨⟨_, hrescans, rfl⟩, fun parts => Rescans.eq_between, ?_, fun term hterm => ?_,
    fun piece => splitTopLevel_of_mem (by constructor <;> decide)⟩
  · rw [splitConjunction, hrescans.eq_between, onePass]
  · obtain ⟨hmem, hne⟩ := List.mem_filter.1 hterm
    obtain ⟨part, hpart, rfl⟩ := List.mem_map.1 hmem
    have hnone := (hrescans.noAnd part hpart).trim
    exact ⟨andPlaces_eq_nil_iff.2 (findKeyword_of_noAnd hnone),
      splitConjunction_of_noAnd (by simpa using hne) (trim_trim part) hnone⟩

example : onePass "(a = 'x and y')AND b = ?) and".toList =
    ["(a = 'x and y')".toList, "b = ?)".toList] := by decide

end

end RecordShelf.Sql

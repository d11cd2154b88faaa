import RecordShelf.Proofs.Sql.ByteScans
import RecordShelf.Proofs.Sql.Overlaps

/-!
# Cuts in range

Searches of the bytes of a text find keywords that lie in the bytes, from the start of one character
to the start of another. No clause keyword starts with a word of another one, so that the clause
keywords of a text do not overlap, and the bodies of the clauses are the stretches between them.
-/

namespace RecordShelf.Sql
open Text

/-! ## Clause keywords -/

theorem ClauseName.words_first (name : ClauseName) : name.words.head? = some name.first := by
  cases name <;> rfl

theorem ClauseName.eq_first_or_by (name : ClauseName) :
    ∀ word ∈ name.words, word = name.first ∨ word = "by".toList := by
  cases name <;> decide

/-- No clause keyword starts with a word of another one. -/
theorem ClauseName.starts_apart {name other : ClauseName} (hne : name ≠ other) :
    ∀ word ∈ name.words, other.words.head? ≠ some word := by
  intro word hword hsame
  rw [words_first, Option.some_inj] at hsame
  rcases name.eq_first_or_by word hword with rfl | rfl
  · exact hne (first_injective hsame).symm
  · exact by_ne_first other hsame.symm

theorem names_clauseMarks (cs : List Char) :
    (clauseMarks cs).Pairwise fun a b => a.name ≠ b.name := by
  have hnames : ClauseName.all.Pairwise (· ≠ ·) := by decide
  have hfound := List.Pairwise.filterMap (S := fun a b : ClauseMark => a.name ≠ b.name)
    (fun name => (findKeyword name.words cs).map fun place => ClauseMark.mk name place.1 place.2)
    (fun name other hne a ha b hb => by
      obtain ⟨_, -, rfl⟩ := Option.map_eq_some_iff.1 (Option.mem_def.1 ha)
      obtain ⟨_, -, rfl⟩ := Option.map_eq_some_iff.1 (Option.mem_def.1 hb)
      exact hne) hnames
  exact (List.mergeSort_perm _ _).symm.pairwise hfound fun hne => hne.symm

theorem sorted_clauseMarks (cs : List Char) :
    (clauseMarks cs).Pairwise fun a b => a.start ≤ b.start := by
  have htrans : ∀ a b c : ClauseMark, decide (a.start ≤ b.start) = true →
      decide (b.start ≤ c.start) = true → decide (a.start ≤ c.start) = true := by
    intro a b c hab hbc
    rw [decide_eq_true_eq] at hab hbc ⊢
    exact Nat.le_trans hab hbc
  have htotal : ∀ a b : ClauseMark,
      (decide (a.start ≤ b.start) || decide (b.start ≤ a.start)) = true := by
    intro a b
    simpa using Nat.le_total a.start b.start
  exact (List.pairwise_mergeSort htrans htotal _).imp fun h => of_decide_eq_true h

/-- The clause keywords of a text stand one behind the other. -/
theorem disjoint_clauseMarks (cs : List Char) :
    (clauseMarks cs).Pairwise fun a b => a.stop ≤ b.start := by
  refine ((names_clauseMarks cs).and (sorted_clauseMarks cs)).imp_of_mem
    fun {a b} ha hb ⟨hne, hle⟩ => ?_
  have hfirst := (occursAt_of_findKeyword (keyword_clause a.name) (findKeyword_of_mem_clauseMarks ha)).1
  have hsecond := (occursAt_of_findKeyword (keyword_clause b.name) (findKeyword_of_mem_clauseMarks hb)).1
  exact hfirst.disjoint (keyword_clause a.name) (keyword_clause b.name)
    (ClauseName.starts_apart hne) hsecond hle

/-! ## Cuts in the bytes of a text -/

/-- From the start of one character, or the end of the text, up to the start of another one or the
end. -/
structure Stretch (cs : List Char) (start stop : ℕ) : Prop where
  le : start ≤ stop
  stop_le : stop ≤ (bytes cs).length
  starts : Boundary cs start
  stops : Boundary cs stop

/-- What a search of the bytes of a text finds. It is not empty, all of it is top-level code, and it
is the first occurrence. -/
structure InRange (cs : List Char) (words : List (List Char)) (start stop : ℕ) : Prop where
  stretch : Stretch cs start stop
  nonempty : start < stop
  top : ∀ i, start ≤ i → i < stop → (mark (bytes cs))[i]?.any Marked.isTop = true
  occurs : OccursAt words (bytes cs) start stop
  first : ∀ i j, OccursAt words (bytes cs) i j → start ≤ i

/-- The clause keywords of a text lie in its bytes one behind the other, and so do the head and the
bodies between them. -/
structure ClauseRanges (cs : List Char) : Prop where
  places : clauseMarks (bytes cs) = (clauseMarks cs).map fun m =>
    ⟨m.name, byteOffset cs m.start, byteOffset cs m.stop⟩
  keyword : ∀ m ∈ clauseMarks (bytes cs), InRange cs m.name.words m.start m.stop
  disjoint : (clauseMarks (bytes cs)).Pairwise fun a b => a.stop ≤ b.start
  head : Stretch cs 0 (nextStart (bytes cs) (clauseMarks (bytes cs)))
  body : ∀ m rest, m :: rest <:+ clauseMarks (bytes cs) →
    Stretch cs m.stop (nextStart (bytes cs) rest)

section
variable {cs : List Char} {words : List (List Char)} {start stop : ℕ}

theorem top_of_occursAt (hwords : Keyword words) (h : OccursAt words cs start stop) :
    ∀ i, start ≤ i → i < stop → (mark cs)[i]?.any Marked.isTop = true := by
  obtain ⟨u, w, v, rfl, rfl, rfl, hoccurs⟩ := h
  intro i hstart hstop
  have hmarks : mark (u ++ (w ++ v)) = mark u ++ (w.map (·, Mark.code 0) ++ mark v) := by
    rw [mark, markFrom_append, hoccurs.top]
    exact congrArg _ (mark_calm (hoccurs.spelled.calm hwords) v)
  have hlength : (mark u).length = u.length := length_markFrom ..
  rw [List.length_append] at hstop
  have hinside : i - u.length < w.length := by omega
  rw [hmarks, List.getElem?_append_right (by omega), hlength,
    List.getElem?_append_left (by rwa [List.length_map]), List.getElem?_map,
    List.getElem?_eq_getElem hinside]
  rfl

theorem inRange_of_findKeyword (hwords : Keyword words)
    (h : findKeyword words (bytes cs) = some (start, stop)) : InRange cs words start stop := by
  obtain ⟨hoccurs, hfirst⟩ := occursAt_of_findKeyword hwords h
  have hnonempty : start < stop ∧ stop ≤ (bytes cs).length := by
    obtain ⟨u, w, v, hsplit, rfl, rfl, hstands⟩ := hoccurs
    have hpos := List.length_pos_iff.2 (hstands.spelled.ne_nil hwords)
    rw [hsplit]
    simp only [List.length_append]
    omega
  have hbounds : Boundary cs start ∧ Boundary cs stop := by
    rw [findKeyword_bytes hwords] at h
    obtain ⟨⟨first, last⟩, -, heq⟩ := Option.map_eq_some_iff.1 h
    obtain ⟨rfl, rfl⟩ := Prod.mk.inj heq
    exact ⟨boundary_byteOffset cs first, boundary_byteOffset cs last⟩
  exact ⟨⟨Nat.le_of_lt hnonempty.1, hnonempty.2, hbounds.1, hbounds.2⟩, hnonempty.1,
    top_of_occursAt hwords hoccurs, hoccurs, hfirst⟩

theorem boundary_zero (cs : List Char) : Boundary cs 0 := by
  have hzero := boundary_byteOffset cs 0
  rwa [byteOffset, List.take_zero, bytes_nil] at hzero

theorem boundary_length (cs : List Char) : Boundary cs (bytes cs).length :=
  byteOffset_length cs ▸ boundary_byteOffset cs cs.length

/-- The clause keywords of the bytes are those of the text. -/
theorem clauseMarks_bytes (cs : List Char) : clauseMarks (bytes cs) = (clauseMarks cs).map fun m =>
    ⟨m.name, byteOffset cs m.start, byteOffset cs m.stop⟩ := by
  have hle : ∀ m ∈ clauseMarks cs, m.start ≤ cs.length := by
    intro m hm
    obtain ⟨⟨u, w, v, rfl, hstart, -⟩, -⟩ :=
      occursAt_of_findKeyword (keyword_clause m.name) (findKeyword_of_mem_clauseMarks hm)
    rw [hstart, List.length_append]
    omega
  rw [clauseMarks, clauseMarks, List.map_mergeSort, List.map_filterMap]
  · simp only [findKeyword_bytes (keyword_clause _), Option.map_map]
    rfl
  · intro m hm n hn
    have hsame := byteOffset_le_iff (hle m (List.mem_mergeSort.2 hm)) (hle n (List.mem_mergeSort.2 hn))
    simp only [hsame]

theorem clauseRanges (cs : List Char) : ClauseRanges cs := by
  have hkeyword : ∀ m ∈ clauseMarks (bytes cs), InRange cs m.name.words m.start m.stop :=
    fun m hm => inRange_of_findKeyword (keyword_clause m.name) (findKeyword_of_mem_clauseMarks hm)
  have hnext : ∀ rest, rest <:+ clauseMarks (bytes cs) →
      nextStart (bytes cs) rest ≤ (bytes cs).length ∧ Boundary cs (nextStart (bytes cs) rest) := by
    intro rest hrest
    cases rest with
    | nil => exact ⟨Nat.le_refl _, boundary_length cs⟩
    | cons m rest =>
      have hm := (hkeyword m (hrest.mem List.mem_cons_self)).stretch
      exact ⟨Nat.le_trans hm.le hm.stop_le, hm.starts⟩
  refine ⟨clauseMarks_bytes cs, hkeyword, disjoint_clauseMarks (bytes cs), ?_,
    fun m rest hrest => ?_⟩
  · obtain ⟨hle, hbound⟩ := hnext _ List.suffix_rfl
    exact ⟨Nat.zero_le _, hle, boundary_zero cs, hbound⟩
  · have hm := (hkeyword m (hrest.mem List.mem_cons_self)).stretch
    obtain ⟨hle, hbound⟩ := hnext rest ((List.suffix_cons m rest).trans hrest)
    refine ⟨?_, hle, hm.stops, hbound⟩
    cases rest with
    | nil => exact hm.stop_le
    | cons next rest =>
      have hpairs := (disjoint_clauseMarks (bytes cs)).sublist hrest.sublist
      exact (List.pairwise_cons.1 hpairs).1 next List.mem_cons_self

theorem exists_byteOffset (h : Boundary cs start) :
    ∃ k, k ≤ cs.length ∧ start = byteOffset cs k := by
  obtain ⟨s, t, hsplit, hsize⟩ := String.Pos.Raw.isValid_iff_exists_append.1 h
  have hcs : cs = s.toList ++ t.toList := by
    rw [← String.toList_append, ← hsplit, String.toList_ofList]
  have hlength : start = s.utf8ByteSize := congrArg String.Pos.Raw.byteIdx hsize
  refine ⟨s.toList.length, by rw [hcs, List.length_append]; exact Nat.le_add_right _ _, ?_⟩
  rw [byteOffset, hcs, List.take_left, length_bytes, String.ofList_toList, hlength]

theorem slice_bytes {i j : ℕ} (hij : i ≤ j) :
    slice (bytes cs) (byteOffset cs i) (byteOffset cs j) = bytes (slice cs i j) := by
  have hfront : (bytes cs).take (byteOffset cs j) = bytes (cs.take j) := by
    rw [← List.take_append_drop j cs, bytes_append, List.take_append_drop, byteOffset, List.take_left]
  have hsplit : cs.take j = cs.take i ++ slice cs i j := by
    rw [slice, ← Nat.min_eq_left hij, ← List.take_take, Nat.min_eq_left hij, List.take_append_drop]
  rw [slice, hfront, hsplit, bytes_append, byteOffset, List.drop_left]

/-- What is cut out of the bytes of a text are the bytes of a text. -/
theorem Stretch.text (h : Stretch cs start stop) :
    ∃ piece, slice (bytes cs) start stop = bytes piece := by
  obtain ⟨i, hi, rfl⟩ := exists_byteOffset h.starts
  obtain ⟨j, hj, rfl⟩ := exists_byteOffset h.stops
  exact ⟨slice cs i j, slice_bytes ((byteOffset_le_iff hi hj).1 h.le)⟩

/-- Every cut is in range, whatever the text: where a keyword is found, where a clause starts and
stops, at a separator, and around the name of a placeholder. -/
theorem cuts_in_range (cs : List Char) :
    (∀ words ∈ searched, ∀ start stop, findKeyword words (bytes cs) = some (start, stop) →
      InRange cs words start stop) ∧
    ClauseRanges cs ∧
    (∀ sep, ¬Wide sep → cutAt sep (mark (bytes cs)) = (cutAt sep (mark cs)).map bytes) ∧
    placeholders (bytes cs) = placeholders cs := by
  refine ⟨fun words hwords start stop hfound => ?_, clauseRanges cs, fun sep hsep => ?_,
    placeholders_bytes cs⟩
  · exact inRange_of_findKeyword (keyword_searched words hwords) hfound
  · rw [mark_bytes, cutAt_inBytes hsep]

theorem cuts_in_range_accent :
    findKeyword ["from".toList] (bytes "é FROM t".toList) = some (3, 7) ∧
    InRange "é FROM t".toList ["from".toList] 3 7 := by
  have hfound : findKeyword ["from".toList] (bytes "é FROM t".toList) = some (3, 7) := by
    rw [bytes_eq_flatMap]
    decide
  exact ⟨hfound, (cuts_in_range _).1 _ (by decide) 3 7 hfound⟩

end

end RecordShelf.Sql

import RecordShelf.Proofs.Query.RowOrder

/-!
# Sorting rows

ORDER BY compares two values by their groups first, then as numbers, then as texts. What reads as no
number is in no group of numbers, so no two values fail to compare, and the comparison is a total
preorder. Rows are compared by the first column that tells them apart. Sorting is stable: there is one
arrangement of the rows in which none stands behind a row that it precedes, and in which rows that no
column tells apart stand as they stood before, and sorting gives that one.
-/

namespace RecordShelf.Query
open Sql

/-! ## Values -/

/-- What comes before what: a value of an earlier group, a lesser number, an earlier text. -/
inductive Below : Option Json → Option Json → Prop
  | group {a b : Option Json} (h : rank a < rank b) : Below a b
  | number {v w : Json} {i j : ℤ} (hv : rank (some v) = 1) (hw : rank (some w) = 1)
      (hi : (toNumber v).position = some i) (hj : (toNumber w).position = some j) (h : i < j) :
      Below (some v) (some w)
  | text {s t : String} (hs : rank (some (.string s)) = 2) (ht : rank (some (.string t)) = 2)
      (h : s < t) : Below (some (.string s)) (some (.string t))

theorem exists_some_of_rank {v : Option Json} (h : rank v ≠ 0) : ∃ w, v = some w := by
  cases v with
  | none => exact absurd rfl h
  | some w => exact ⟨w, rfl⟩

/-- Only texts are in the group of texts. -/
theorem exists_string_of_rank_two {v : Option Json} (h : rank v = 2) :
    ∃ s, v = some (.string s) := by
  obtain ⟨w, rfl⟩ := exists_some_of_rank (v := v) (by omega)
  cases w with
  | string s => exact ⟨s, rfl⟩
  | null | bool | number | array | object => exact absurd h (by simp [rank])

theorem compareValues_of_rank_one {a b : Option Json} (ha : rank a = 1) (hb : rank b = 1) :
    ∃ v w i j, a = some v ∧ b = some w ∧ (toNumber v).position = some i ∧
      (toNumber w).position = some j ∧ compareValues a b = compare i j := by
  obtain ⟨v, rfl⟩ := exists_some_of_rank (v := a) (by omega)
  obtain ⟨w, rfl⟩ := exists_some_of_rank (v := b) (by omega)
  obtain ⟨i, hi⟩ := position_of_rank_one ha
  obtain ⟨j, hj⟩ := position_of_rank_one hb
  rw [Option.getD_some] at hi hj
  refine ⟨v, w, i, j, rfl, rfl, hi, hj, ?_⟩
  simp only [compareValues, ha, hb, Option.getD_some, numericCompare?, Double.compare?, hi, hj]

theorem compareValues_of_rank_two {a b : Option Json} (ha : rank a = 2) (hb : rank b = 2) :
    ∃ s t, a = some (.string s) ∧ b = some (.string t) ∧ compareValues a b = compare s t := by
  obtain ⟨s, rfl⟩ := exists_string_of_rank_two ha
  obtain ⟨t, rfl⟩ := exists_string_of_rank_two hb
  refine ⟨s, t, rfl, rfl, ?_⟩
  rw [compareValues, ha, hb]
  rfl

theorem compareValues_of_ne {a b : Option Json} (h : ¬(rank a = 1 ∧ rank b = 1))
    (h' : ¬(rank a = 2 ∧ rank b = 2)) : compareValues a b = compare (rank a) (rank b) := by
  rw [compareValues]
  split
  · rename_i ha hb
    exact absurd ⟨ha, hb⟩ h
  · rename_i ha hb
    exact absurd ⟨ha, hb⟩ h'
  · rfl

theorem compareValues_eq_lt_iff {a b : Option Json} : compareValues a b = .lt ↔ Below a b := by
  constructor
  · intro hlt
    by_cases hone : rank a = 1 ∧ rank b = 1
    · obtain ⟨v, w, i, j, rfl, rfl, hi, hj, hcompare⟩ := compareValues_of_rank_one hone.1 hone.2
      rw [hcompare] at hlt
      exact .number hone.1 hone.2 hi hj (compare_lt_iff_lt.1 hlt)
    · by_cases htwo : rank a = 2 ∧ rank b = 2
      · obtain ⟨s, t, rfl, rfl, hcompare⟩ := compareValues_of_rank_two htwo.1 htwo.2
        rw [hcompare] at hlt
        exact .text htwo.1 htwo.2 (compareOfLessAndEq_eq_lt.1 hlt)
      · rw [compareValues_of_ne hone htwo] at hlt
        exact .group (Nat.compare_eq_lt.1 hlt)
  · intro hbelow
    cases hbelow with
    | group h =>
      rw [compareValues_of_ne (by omega) (by omega)]
      exact Nat.compare_eq_lt.2 h
    | number hv hw hi hj h =>
      obtain ⟨_, _, i', j', hsame, hsame', hi', hj', hcompare⟩ := compareValues_of_rank_one hv hw
      cases hsame
      cases hsame'
      rw [hi] at hi'
      rw [hj] at hj'
      cases hi'
      cases hj'
      rw [hcompare]
      exact compare_lt_iff_lt.2 h
    | text hs ht h =>
      obtain ⟨_, _, hsame, hsame', hcompare⟩ := compareValues_of_rank_two hs ht
      cases hsame
      cases hsame'
      rw [hcompare]
      exact compareOfLessAndEq_eq_lt.2 h

/-! ## Rows -/

/-- No column tells the rows apart. -/
def Tied (order : List OrderItem) (a b : Record) : Prop :=
  ∀ item ∈ order, compareColumn item a b = .eq

instance (order : List OrderItem) (a b : Record) : Decidable (Tied order a b) :=
  inferInstanceAs (Decidable (∀ item ∈ order, compareColumn item a b = .eq))

/-- Some column puts the first row before the second one, and none before it tells them apart. -/
def Precedes (order : List OrderItem) (a b : Record) : Prop :=
  ∃ earlier item later, order = earlier ++ item :: later ∧ Tied earlier a b ∧
    compareColumn item a b = .lt

theorem compareRows_eq_iff {order : List OrderItem} {a b : Record} :
    compareRows order a b = .eq ↔ Tied order a b := by
  induction order with
  | nil => exact iff_of_true rfl fun item hitem => absurd hitem List.not_mem_nil
  | cons item rest ih =>
    rw [compareRows_cons, compareLex, Ordering.then_eq_eq, ih, Tied, Tied, List.forall_mem_cons]

theorem compareRows_lt_iff {order : List OrderItem} {a b : Record} :
    compareRows order a b = .lt ↔ Precedes order a b := by
  induction order with
  | nil =>
    refine iff_of_false Ordering.noConfusion ?_
    rintro ⟨earlier, item, later, hsplit, -⟩
    exact absurd hsplit (by simp)
  | cons item rest ih =>
    rw [compareRows_cons, compareLex, Ordering.then_eq_lt, ih]
    constructor
    · rintro (hlt | ⟨heq, earlier, next, later, rfl, htied, hlt⟩)
      · exact ⟨[], item, rest, rfl, fun i hi => absurd hi List.not_mem_nil, hlt⟩
      · exact ⟨item :: earlier, next, later, rfl, List.forall_mem_cons.2 ⟨heq, htied⟩, hlt⟩
    · rintro ⟨earlier, next, later, hsplit, htied, hlt⟩
      cases earlier with
      | nil =>
        obtain ⟨rfl, rfl⟩ := List.cons.inj hsplit
        exact Or.inl hlt
      | cons first earlier =>
        obtain ⟨rfl, rfl⟩ := List.cons.inj hsplit
        obtain ⟨heq, htied⟩ := List.forall_mem_cons.1 htied
        exact Or.inr ⟨heq, earlier, next, later, rfl, htied, hlt⟩

theorem compareRows_gt_iff {order : List OrderItem} {a b : Record} :
    compareRows order a b = .gt ↔ Precedes order b a := by
  rw [← compareRows_lt_iff]
  exact Std.OrientedCmp.gt_iff_lt

theorem tied_self (order : List OrderItem) (a : Record) : Tied order a a :=
  compareRows_eq_iff.1 Std.ReflCmp.compare_self

theorem Tied.symm {order : List OrderItem} {a b : Record} (h : Tied order a b) : Tied order b a :=
  compareRows_eq_iff.1 (Std.OrientedCmp.eq_symm (compareRows_eq_iff.2 h))

theorem Tied.trans {order : List OrderItem} {a b c : Record} (hab : Tied order a b)
    (hbc : Tied order b c) : Tied order a c :=
  compareRows_eq_iff.1
    (Std.TransCmp.eq_trans (compareRows_eq_iff.2 hab) (compareRows_eq_iff.2 hbc))

/-- Two rows are tied, or one of them precedes the other one. -/
theorem tied_of_not_precedes {order : List OrderItem} {a b : Record} (hab : ¬Precedes order a b)
    (hba : ¬Precedes order b a) : Tied order a b := by
  cases hcompare : compareRows order a b with
  | eq => exact compareRows_eq_iff.1 hcompare
  | lt => exact absurd (compareRows_lt_iff.1 hcompare) hab
  | gt => exact absurd (compareRows_gt_iff.1 hcompare) hba

/-! ## Sorted rows -/

/-- Rows in an order: none stands behind a row that it precedes, and tied rows stand as they stood
before. -/
structure StablySorted (order : List OrderItem) (rows sorted : List Record) : Prop where
  perm : sorted.Perm rows
  ordered : sorted.Pairwise fun a b => ¬Precedes order b a
  stable : ∀ r, sorted.filter (fun row => Tied order r row) = rows.filter (fun row => Tied order r row)

theorem sortRows_stable (order : List OrderItem) (rows : List Record) (r : Record) :
    (sortRows order rows).filter (fun row => Tied order r row) =
      rows.filter (fun row => Tied order r row) := by
  have htied : (rows.filter fun row => Tied order r row).Pairwise fun a b =>
      (compareRows order a b != .gt) = true := by
    apply List.pairwise_of_forall_mem_list
    intro a ha b hb
    have hra : Tied order r a := of_decide_eq_true (List.mem_filter.1 ha).2
    have hrb : Tied order r b := of_decide_eq_true (List.mem_filter.1 hb).2
    rw [compareRows_eq_iff.2 (hra.symm.trans hrb)]
    rfl
  have hkept : (rows.filter fun row => Tied order r row).Sublist (sortRows order rows) :=
    List.sublist_mergeSort (not_gt_trans order) (not_gt_total order) htied List.filter_sublist
  have hsub := hkept.filter fun row => decide (Tied order r row)
  rw [List.filter_filter] at hsub
  simp only [Bool.and_self] at hsub
  have hlength := ((sortRows_perm order rows).filter fun row => decide (Tied order r row)).length_eq
  exact (hsub.eq_of_length hlength.symm).symm

theorem stablySorted_sortRows (order : List OrderItem) (rows : List Record) :
    StablySorted order rows (sortRows order rows) where
  perm := sortRows_perm order rows
  ordered := (pairwise_sortRows order rows).imp fun hab hprecedes =>
    hab (compareRows_gt_iff.2 hprecedes)
  stable := sortRows_stable order rows

theorem not_precedes_self (order : List OrderItem) (a : Record) : ¬Precedes order a a := by
  rw [← compareRows_lt_iff, compareRows_eq_iff.2 (tied_self order a)]
  exact Ordering.noConfusion

theorem mem_tied_self (order : List OrderItem) (a : Record) (rows : List Record) :
    a ∈ (a :: rows).filter fun row => Tied order a row :=
  List.mem_filter.2 ⟨List.mem_cons_self, decide_eq_true (tied_self order a)⟩

/-- No row of an ordered list precedes the first. -/
theorem not_precedes_first {order : List OrderItem} {a b : Record} {rows : List Record}
    (h : (b :: rows).Pairwise fun a b => ¬Precedes order b a) (ha : a ∈ b :: rows) :
    ¬Precedes order a b := by
  rcases List.mem_cons.1 ha with rfl | hmem
  · exact not_precedes_self order a
  · exact (List.pairwise_cons.1 h).1 a hmem

/-- Which rows there are, and in which order tied ones stand, leaves one sorted list. -/
theorem eq_of_ordered {order : List OrderItem} {u v : List Record}
    (hu : u.Pairwise fun a b => ¬Precedes order b a) (hv : v.Pairwise fun a b => ¬Precedes order b a)
    (h : ∀ r, u.filter (fun row => Tied order r row) = v.filter (fun row => Tied order r row)) :
    u = v := by
  induction u generalizing v with
  | nil =>
    cases v with
    | nil => rfl
    | cons b v =>
      have hmem := mem_tied_self order b v
      rw [← h b] at hmem
      exact absurd hmem List.not_mem_nil
  | cons a u ih =>
    cases v with
    | nil =>
      have hmem := mem_tied_self order a u
      rw [h a] at hmem
      exact absurd hmem List.not_mem_nil
    | cons b v =>
      -- Each first row stands in the other list as well, so neither precedes the other.
      have ha : a ∈ b :: v := List.mem_of_mem_filter (h a ▸ mem_tied_self order a u)
      have hb : b ∈ a :: u := List.mem_of_mem_filter ((h b).symm ▸ mem_tied_self order b v)
      have htied : Tied order a b :=
        tied_of_not_precedes (not_precedes_first hv ha) (not_precedes_first hu hb)
      have hheads := h a
      rw [List.filter_cons, if_pos (decide_eq_true (tied_self order a)), List.filter_cons,
        if_pos (decide_eq_true htied)] at hheads
      obtain rfl : a = b := (List.cons.inj hheads).1
      have hrest : ∀ r, u.filter (fun row => Tied order r row) =
          v.filter (fun row => Tied order r row) := by
        intro r
        have hboth := h r
        rw [List.filter_cons, List.filter_cons] at hboth
        split_ifs at hboth
        · exact (List.cons.inj hboth).2
        · exact hboth
      rw [ih hu.of_cons hv.of_cons hrest]

/-- Values are compared in a total preorder: swapped they compare the other way round, and what is
less, equal or at most stays so along a chain. A value is less when it is of an earlier group, a lesser
number or an earlier text. Sorting gives the one list of the rows in which none stands behind a row
that it precedes by the first column that tells them apart, in the direction of that column, and in
which rows that are equal under all columns keep their order. -/
theorem order_by_sorts_stably :
    (∀ a b, compareValues b a = (compareValues a b).swap) ∧
    (∀ a b c, compareValues a b = .lt → compareValues b c = .lt → compareValues a c = .lt) ∧
    (∀ a b c, compareValues a b = .eq → compareValues b c = .eq → compareValues a c = .eq) ∧
    (∀ a b c, compareValues a b ≠ .gt → compareValues b c ≠ .gt → compareValues a c ≠ .gt) ∧
    (∀ a b, compareValues a b = .lt ↔ Below a b) ∧
    ∀ (order : List OrderItem) (rows sorted : List Record),
      sorted = sortRows order rows ↔ StablySorted order rows sorted := by
  refine ⟨fun a b => Std.OrientedCmp.eq_swap, fun a b c => Std.TransCmp.lt_trans,
    fun a b c => Std.TransCmp.eq_trans, fun a b c hab hbc => ?_,
    fun a b => compareValues_eq_lt_iff, fun order rows sorted => ?_⟩
  · exact Ordering.isLE_iff_ne_gt.1 (Std.TransCmp.isLE_trans (Ordering.isLE_iff_ne_gt.2 hab)
      (Ordering.isLE_iff_ne_gt.2 hbc))
  · have hsorted := stablySorted_sortRows order rows
    constructor
    · rintro rfl
      exact hsorted
    · intro h
      exact eq_of_ordered h.ordered hsorted.ordered fun r => (h.stable r).trans (hsorted.stable r).symm

/-- Records with a name and a score. -/
def scored (name : String) (score : Json) : Record := [("name", .string name), ("score", score)]

def byScore : List OrderItem := [⟨"score", .descending⟩]

/-- What reads as infinity comes before a number, and the number and its text keep their order. -/
theorem order_by_sorts_scores :
    StablySorted byScore
      [scored "a" (.ofNat 1), scored "b" (.string "inf"), scored "c" (.string "1")]
      [scored "b" (.string "inf"), scored "a" (.ofNat 1), scored "c" (.string "1")] ∧
    compareValues (some (.string "nan")) none = .gt ∧
    compareValues (some (.string "-inf")) (some (.string "nan")) = .lt := by
  have hab : compareRows byScore (scored "a" (.ofNat 1)) (scored "b" (.string "inf")) = .gt := by
    decide +kernel
  have hac : compareRows byScore (scored "a" (.ofNat 1)) (scored "c" (.string "1")) = .eq := by
    decide +kernel
  have hsorted : [scored "b" (.string "inf"), scored "a" (.ofNat 1), scored "c" (.string "1")] =
      sortRows byScore
        [scored "a" (.ofNat 1), scored "b" (.string "inf"), scored "c" (.string "1")] := by
    have hbc : compareRows byScore (scored "b" (.string "inf")) (scored "c" (.string "1")) = .lt := by
      decide +kernel
    simp [sortRows, List.mergeSort, List.MergeSort.Internal.splitInTwo, hab, hac, hbc]
  obtain ⟨hswap, hless, -, -, -, hsort⟩ := order_by_sorts_stably
  refine ⟨(hsort _ _ _).1 hsorted, ?_, ?_⟩
  · rw [hswap none]
    decide +kernel
  · exact hless _ (some (.ofNat 0)) _ (by decide +kernel) (by decide +kernel)

end RecordShelf.Query

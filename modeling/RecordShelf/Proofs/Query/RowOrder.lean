import Mathlib.Data.List.Sort
import RecordShelf.Query.Execute

/-!
# The order of rows

Values are compared by their group first, then as numbers, then as strings, so that rows compare by
one column after the other in a total preorder. A list of rows has one sorted form only, whatever its
order was, as long as no two different rows compare equal.
-/

namespace RecordShelf.Query
open Sql

/-! ## Values -/

/-- Where a number, or what reads as one, stands among the numbers. -/
def placeOf (v : Option Json) : ℤ :=
  if rank v = 1 then ((toNumber (v.getD .null)).position).getD 0 else 0

/-- The text of a string that is no number. -/
def textOf (v : Option Json) : String :=
  if rank v = 2 then (v.bind Json.string?).getD "" else ""

/-- What is in the group of numbers stands among the numbers. -/
theorem position_of_rank_one {v : Option Json} (h : rank v = 1) :
    ∃ i, (toNumber (v.getD .null)).position = some i := by
  cases v with
  | none => exact absurd h (by simp [rank])
  | some v =>
    cases v with
    | null => exact absurd h (by simp [rank])
    | array | object => exact absurd h (by simp [rank])
    | bool b => exact ⟨_, rfl⟩
    | number n => cases n <;> exact ⟨_, rfl⟩
    | string s =>
      cases hnumber : toNumber (.string s) with
      | nan => exact absurd h (by simp [rank, hnumber, Double.isNan])
      | signed negative r bound =>
        rw [Option.getD_some, hnumber]
        exact ⟨_, rfl⟩

/-- The group decides, then the place among the numbers, then the text. -/
theorem compareValues_eq : compareValues =
    compareLex (compareOn rank) (compareLex (compareOn placeOf) (compareOn textOf)) := by
  funext a b
  have hself (n : ℕ) : compare n n = .eq := Std.ReflOrd.compare_self
  rw [compareLex, compareLex, compareOn, compareOn, compareOn, compareValues]
  split
  · rename_i ha hb
    obtain ⟨i, hi⟩ := position_of_rank_one ha
    obtain ⟨j, hj⟩ := position_of_rank_one hb
    have hplaces : compare (placeOf a) (placeOf b) = compare i j := by
      rw [placeOf, if_pos ha, hi, placeOf, if_pos hb, hj, Option.getD_some, Option.getD_some]
    have htexts : compare (textOf a) (textOf b) = .eq := by
      rw [textOf, if_neg (by omega), textOf, if_neg (by omega)]
      exact Std.ReflOrd.compare_self
    have hnumbers : numericCompare? (a.getD .null) (b.getD .null) = some (compare i j) := by
      rw [numericCompare?, Double.compare?, hi, hj]
    rw [ha, hb, hself, hplaces, htexts, hnumbers]
    exact Ordering.then_eq.symm
  · rename_i ha hb
    have hplaces : compare (placeOf a) (placeOf b) = .eq := by
      rw [placeOf, if_neg (by omega), placeOf, if_neg (by omega)]
      exact Std.ReflOrd.compare_self
    rw [ha, hb, hself, hplaces, textOf, if_pos ha, textOf, if_pos hb]
    rfl
  · rename_i hone htwo
    by_cases hrank : rank a = rank b
    · have ha1 : rank a ≠ 1 := fun h => hone h (hrank ▸ h)
      have ha2 : rank a ≠ 2 := fun h => htwo h (hrank ▸ h)
      rw [placeOf, if_neg ha1, placeOf, if_neg (hrank ▸ ha1), textOf, if_neg ha2, textOf,
        if_neg (hrank ▸ ha2), hrank, hself]
      rfl
    · have hne : compare (rank a) (rank b) ≠ .eq := fun h => hrank (Nat.compare_eq_eq.1 h)
      cases hcompare : compare (rank a) (rank b) with
      | eq => exact absurd hcompare hne
      | lt | gt => rfl

instance : Std.TransCmp compareValues := by
  rw [compareValues_eq]
  infer_instance

/-! ## Rows -/

/-- The comparison of rows under one column. -/
def compareColumn (item : OrderItem) (a b : Record) : Ordering :=
  match item.direction with
  | .ascending => compareValues (a.get? item.column) (b.get? item.column)
  | .descending => compareValues (b.get? item.column) (a.get? item.column)

/-- Things are compared by what they have. -/
theorem transCmp_by {α β : Type} {cmp : β → β → Ordering} [Std.TransCmp cmp] (f : α → β) :
    Std.TransCmp fun a b => cmp (f a) (f b) where
  eq_swap := Std.OrientedCmp.eq_swap
  isLE_trans := Std.TransCmp.isLE_trans

instance (item : OrderItem) : Std.TransCmp (compareColumn item) := by
  obtain ⟨column, direction⟩ := item
  have hascending : Std.TransCmp fun a b : Record =>
      compareValues (a.get? column) (b.get? column) := transCmp_by fun r : Record => r.get? column
  have hdescending : Std.TransCmp fun a b : Record =>
      compareValues (b.get? column) (a.get? column) := Std.TransCmp.opposite
  cases direction with
  | ascending => exact hascending
  | descending => exact hdescending

theorem compareRows_cons (item : OrderItem) (rest : List OrderItem) :
    compareRows (item :: rest) = compareLex (compareColumn item) (compareRows rest) := by
  funext a b
  rw [compareRows, compareLex, compareColumn]
  have hswap : compareValues (b.get? item.column) (a.get? item.column) =
      (compareValues (a.get? item.column) (b.get? item.column)).swap :=
    Std.OrientedCmp.eq_swap
  cases item.direction with
  | ascending => cases compareValues (a.get? item.column) (b.get? item.column) <;> rfl
  | descending =>
    dsimp only
    rw [hswap]
    cases compareValues (a.get? item.column) (b.get? item.column) <;> rfl

instance transCmp_compareRows (order : List OrderItem) : Std.TransCmp (compareRows order) := by
  induction order with
  | nil => exact @transCmp_by Record ℕ compare _ fun _ => 0
  | cons item rest ih =>
    rw [compareRows_cons]
    infer_instance

/-! ## Sorted rows -/

theorem sortRows_perm (order : List OrderItem) (rows : List Record) :
    (sortRows order rows).Perm rows :=
  List.mergeSort_perm rows _

/-- What `sortRows` asks of two neighbours is a total preorder. -/
theorem not_gt_trans (order : List OrderItem) (a b c : Record)
    (hab : (compareRows order a b != .gt) = true) (hbc : (compareRows order b c != .gt) = true) :
    (compareRows order a c != .gt) = true := by
  have hle (a b : Record) : (compareRows order a b != .gt) = (compareRows order a b).isLE := by
    cases compareRows order a b <;> rfl
  rw [hle] at hab hbc ⊢
  exact Std.TransCmp.isLE_trans hab hbc

theorem not_gt_total (order : List OrderItem) (a b : Record) :
    ((compareRows order a b != .gt) || (compareRows order b a != .gt)) = true := by
  have hswap : compareRows order b a = (compareRows order a b).swap := Std.OrientedCmp.eq_swap
  rw [hswap]
  cases compareRows order a b <;> rfl

theorem pairwise_sortRows (order : List OrderItem) (rows : List Record) :
    (sortRows order rows).Pairwise fun a b => compareRows order a b ≠ .gt := by
  have hsorted := List.pairwise_mergeSort (not_gt_trans order) (not_gt_total order) rows
  exact hsorted.imp fun hab => bne_iff_ne.1 hab

/-- Without columns rows keep the order in which they are listed. -/
theorem sortRows_nil (rows : List Record) : sortRows [] rows = rows := by
  apply List.mergeSort_of_pairwise
  exact List.pairwise_of_forall fun _ _ => rfl

/-- No two different rows compare equal under the columns of an order. -/
def Strict (order : List OrderItem) (rows : List Record) : Prop :=
  ∀ a ∈ rows, ∀ b ∈ rows, compareRows order a b = .eq → a = b

theorem Strict.perm {order : List OrderItem} {rows rows' : List Record} (h : Strict order rows)
    (hperm : rows.Perm rows') : Strict order rows' :=
  fun a ha b hb => h a (hperm.mem_iff.2 ha) b (hperm.mem_iff.2 hb)

/-- Rows that no two orders can tell apart are one list in any order of listing. -/
theorem Strict.eq_of_pairwise {order : List OrderItem} {rows rows' : List Record}
    (h : Strict order rows) (hperm : rows.Perm rows')
    (hrows : rows.Pairwise fun a b => compareRows order a b ≠ .gt)
    (hrows' : rows'.Pairwise fun a b => compareRows order a b ≠ .gt) : rows = rows' := by
  apply List.Perm.eq_of_pairwise (fun a b ha hb hab hba => ?_) hrows hrows' hperm
  apply h a ha b (hperm.mem_iff.2 hb)
  have hswap : compareRows order b a = (compareRows order a b).swap := Std.OrientedCmp.eq_swap
  rw [hswap] at hba
  cases hcompare : compareRows order a b with
  | eq => rfl
  | lt => exact absurd (by rw [hcompare]; rfl) hba
  | gt => exact absurd hcompare hab

theorem Strict.sortRows_eq {order : List OrderItem} {rows rows' : List Record}
    (h : Strict order rows) (hperm : rows.Perm rows') :
    sortRows order rows = sortRows order rows' := by
  have hsorted := (sortRows_perm order rows).trans (hperm.trans (sortRows_perm order rows').symm)
  apply (h.perm (sortRows_perm order rows).symm).eq_of_pairwise hsorted
  · exact pairwise_sortRows order rows
  · exact pairwise_sortRows order rows'

/-! ## What a SELECT gives -/

theorem selectRows_of_no_count {s : Select} (hcount : s.countLabel = none) (offset limit : Option Json)
    (found : List Record) :
    selectRows s offset limit found = page offset limit (sortRows s.order found) := by
  rw [selectRows, hcount]
  dsimp only
  cases horder : s.order with
  | nil => rw [List.isEmpty_nil, if_pos rfl, sortRows_nil]
  | cons item rest => rfl

/-- A count does not depend on the order of the rows, and neither do the rows as a whole. Where no two
different rows compare equal, their order does not depend on it either. -/
theorem selectRows_perm (s : Select) {found found' : List Record} (h : found.Perm found') :
    (s.countLabel.isSome = true → ∀ offset limit,
      selectRows s offset limit found = selectRows s offset limit found') ∧
    (selectRows s none none found).Perm (selectRows s none none found') ∧
    (Strict s.order found → ∀ offset limit,
      selectRows s offset limit found = selectRows s offset limit found') := by
  cases hcount : s.countLabel with
  | some label =>
    have hsame (offset limit : Option Json) :
        selectRows s offset limit found = selectRows s offset limit found' := by
      simp only [selectRows, hcount, h.length_eq]
    exact ⟨fun _ => hsame, .of_eq (hsame none none), fun _ => hsame⟩
  | none =>
    refine ⟨fun hsome => absurd hsome (by simp), ?_, fun hstrict offset limit => ?_⟩
    · rw [selectRows_of_no_count hcount, selectRows_of_no_count hcount]
      exact (sortRows_perm _ _).trans (h.trans (sortRows_perm _ _).symm)
    · rw [selectRows_of_no_count hcount, selectRows_of_no_count hcount, hstrict.sortRows_eq h]

/-- Pages of some rows each, one after the other, are the rows from the first on. -/
theorem flatMap_pages (rows : List Record) (n m : ℕ) :
    ((List.range m).flatMap fun k => (rows.drop (n * k)).take n) = rows.take (n * m) := by
  induction m with
  | zero => rfl
  | succ m ih =>
    rw [List.range_succ, List.flatMap_append, ih, List.flatMap_singleton, Nat.mul_succ,
      List.take_add]

end RecordShelf.Query

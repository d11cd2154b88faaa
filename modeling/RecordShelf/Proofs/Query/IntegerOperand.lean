import RecordShelf.Proofs.Cache.Keys
import RecordShelf.Proofs.Number.Integers
import RecordShelf.Query.Predicate

/-!
# Comparisons of integers

A field that holds an integer is compared with an integer as a double with a double. So the order of
two integers is never turned round, but beyond 2 ^ 53 integers with the same nearest double are equal.
-/

namespace RecordShelf

namespace Query
open Sql

/-- The relation that an operator stands for. -/
def Relates : CompareOp → ℤ → ℤ → Prop
  | .eq, a, b => a = b
  | .ne, a, b => a ≠ b
  | .gt, a, b => a > b
  | .lt, a, b => a < b
  | .ge, a, b => a ≥ b
  | .le, a, b => a ≤ b
  | .like, _, _ | .notLike, _, _ => False

variable {a b : ℤ} (ha : fits64 a) (hb : fits64 b)

theorem toNumber_integer : toNumber (.number (.integer a ha)) = .ofInt a := rfl

theorem display_integer :
    display (.number (.integer a ha)) = String.ofList (decimalInt a) := rfl

theorem dualEq_integers : dualEq (.number (.integer a ha)) (.number (.integer b hb)) =
    decide (nearestDouble a = nearestDouble b) := by
  rw [dualEq, toNumber_integer, toNumber_integer, Double.same_ofInt ha hb, display_integer,
    display_integer]
  by_cases heq : a = b
  · subst heq
    rw [beq_self_eq_true, Bool.true_or, decide_eq_true rfl]
  · have hne : String.ofList (decimalInt a) ≠ String.ofList (decimalInt b) := fun h =>
      heq (decimalInt_injective (String.ofList_injective h))
    rw [beq_eq_false_iff_ne.2 hne, Bool.false_or]

theorem looseEq_integers : looseEq (.number (.integer a ha)) (.number (.integer b hb)) =
    decide (nearestDouble a = nearestDouble b) :=
  Double.same_ofInt ha hb

/-- The orders for which each comparison holds. -/
theorem any_compare (x y : ℤ) :
    ((compare x y).isGT = true ↔ x > y) ∧ ((compare x y).isLT = true ↔ x < y) ∧
      ((compare x y).isGE = true ↔ x ≥ y) ∧ ((compare x y).isLE = true ↔ x ≤ y) := by
  rcases lt_trichotomy x y with h | h | h
  · rw [compare_lt_iff_lt.2 h]
    exact ⟨iff_of_false Bool.false_ne_true (by omega), iff_of_true rfl h,
      iff_of_false Bool.false_ne_true (by omega), iff_of_true rfl h.le⟩
  · rw [compare_eq_iff_eq.2 h]
    exact ⟨iff_of_false Bool.false_ne_true (by omega), iff_of_false Bool.false_ne_true (by omega),
      iff_of_true rfl h.ge, iff_of_true rfl h.le⟩
  · rw [compare_gt_iff_gt.2 h]
    exact ⟨iff_of_true rfl h, iff_of_false Bool.false_ne_true (by omega), iff_of_true rfl h.le,
      iff_of_false Bool.false_ne_true (by omega)⟩

variable {rules : FilterRules} {field : String} {r : Record}

/-- A comparison of integers holds when the nearest doubles are so related. -/
theorem holds_integers_iff (hfield : rules.isBoolean field = false)
    (hget : r.get? field = some (.number (.integer a ha))) (op : CompareOp) :
    rules.holds r (.compare field op (.number (.integer b hb))) = true ↔
      Relates op (nearestDouble a) (nearestDouble b) := by
  have hequal : rules.equal field (.number (.integer a ha)) (.number (.integer b hb)) =
      decide (nearestDouble a = nearestDouble b) := by
    rw [FilterRules.equal, hfield, if_neg Bool.false_ne_true, dualEq_integers, looseEq_integers,
      ite_self]
  have hcompare : numericCompare? (.number (.integer a ha)) (.number (.integer b hb)) =
      some (compare (nearestDouble a) (nearestDouble b)) := Double.compare_ofInt ha hb
  obtain ⟨hgt, hlt, hge, hle⟩ := any_compare (nearestDouble a) (nearestDouble b)
  simp only [FilterRules.holds, hget]
  cases op with
  | eq => rw [FilterRules.compare, hequal, decide_eq_true_eq, Relates]
  | ne => rw [FilterRules.compare, hequal, Bool.not_eq_true', decide_eq_false_iff_not, Relates]
  | gt => rwa [FilterRules.compare, hcompare, Option.any_some]
  | lt => rwa [FilterRules.compare, hcompare, Option.any_some]
  | ge => rwa [FilterRules.compare, hcompare, Option.any_some]
  | le => rwa [FilterRules.compare, hcompare, Option.any_some]
  | like | notLike => exact iff_of_false Bool.false_ne_true id

/-- Rounding keeps the relations of two integers that it keeps apart. -/
theorem relates_nearest_iff (hne : nearestDouble a ≠ nearestDouble b) (op : CompareOp) :
    Relates op (nearestDouble a) (nearestDouble b) ↔ Relates op a b := by
  have hab := fun h : a ≤ b => nearestDouble_mono h
  have hba := fun h : b ≤ a => nearestDouble_mono h
  have heq : a = b → nearestDouble a = nearestDouble b := congrArg nearestDouble
  cases op <;> simp only [Relates] <;> omega

/-- All comparisons of an integer that is stored under a field without a rule of its own for truth
values with an integer operand are comparisons of the nearest doubles, for both ways of equality.
They are those of the integers themselves exactly when the integers are equal or have different
nearest doubles, and so always when neither is beyond 2 ^ 53. The order is never turned round. -/
theorem integers_compare_as_doubles (hfield : rules.isBoolean field = false)
    (hget : r.get? field = some (.number (.integer a ha))) :
    let holds := fun op => rules.holds r (.compare field op (.number (.integer b hb))) = true
    (∀ op, holds op ↔ Relates op (nearestDouble a) (nearestDouble b)) ∧
    ((∀ op, holds op ↔ Relates op a b) ↔ a = b ∨ nearestDouble a ≠ nearestDouble b) ∧
    (a.natAbs ≤ 2 ^ 53 → b.natAbs ≤ 2 ^ 53 → ∀ op, holds op ↔ Relates op a b) ∧
    (holds .lt → a < b) ∧ (holds .gt → a > b) ∧ (a ≤ b → holds .le) ∧ (a ≥ b → holds .ge) ∧
    (a = b → holds .eq) ∧ (holds .ne → a ≠ b) := by
  intro holds
  have hholds : ∀ op, holds op ↔ Relates op (nearestDouble a) (nearestDouble b) :=
    holds_integers_iff ha hb hfield hget
  have hab := fun h : a ≤ b => nearestDouble_mono h
  have hba := fun h : b ≤ a => nearestDouble_mono h
  refine ⟨hholds, ⟨fun hexact => ?_, ?_⟩, fun hsmall hsmall' op => ?_, fun h => ?_, fun h => ?_,
    fun h => (hholds .le).2 (hab h), fun h => (hholds .ge).2 (hba h),
    fun h => (hholds .eq).2 (congrArg nearestDouble h),
    fun h heq => (hholds .ne).1 h (congrArg nearestDouble heq)⟩
  · rw [or_iff_not_imp_right, not_not]
    exact fun heq => (hexact .eq).1 ((hholds .eq).2 heq)
  · rintro (rfl | hne) op
    · refine (hholds op).trans ?_
      cases op <;> simp [Relates]
    · exact (hholds op).trans (relates_nearest_iff hne op)
  · have hiff := hholds op
    rwa [nearestDouble_eq_self hsmall, nearestDouble_eq_self hsmall'] at hiff
  · have hlt : nearestDouble a < nearestDouble b := (hholds .lt).1 h
    omega
  · have hgt : nearestDouble a > nearestDouble b := (hholds .gt).1 h
    omega

/-- A record with an integer. -/
def counted (field : String) (n : ℤ) (h : fits64 n) : Record := [(field, .number (.integer n h))]

/-- Two neighbours beyond 2 ^ 53 with different doubles. -/
theorem integers_compare_neighbours :
    nearestDouble 9007199254740994 ≠ nearestDouble 9007199254740993 ∧
    ∀ op, FilterRules.holds ⟨[], ["n"]⟩ (counted "n" 9007199254740994 (by decide))
      (.compare "n" op (.number (.integer 9007199254740993 (by decide)))) = true ↔
      Relates op 9007199254740994 9007199254740993 := by
  have hne : nearestDouble 9007199254740994 ≠ nearestDouble 9007199254740993 := by decide +kernel
  have hfield : FilterRules.isBoolean ⟨[], ["n"]⟩ "n" = false := rfl
  have hget : (counted "n" 9007199254740994 (by decide)).get? "n" =
      some (.number (.integer 9007199254740994 (by decide))) := rfl
  obtain ⟨-, hexact, -⟩ := integers_compare_as_doubles (b := 9007199254740993) (by decide) (by decide)
    hfield hget
  exact ⟨hne, hexact.2 (Or.inr hne)⟩

/-- Two neighbours with one double, under a dual field and under a field with no rule. -/
theorem neighbours_equal :
    (9007199254740993 : ℤ) ≠ 9007199254740992 ∧
    ∀ field ∈ ["user_id", "n"], (⟨[], ["user_id"]⟩ : FilterRules).isBoolean field = false ∧
      FilterRules.holds ⟨[], ["user_id"]⟩ (counted field 9007199254740993 (by decide))
        (.compare field .eq (.number (.integer 9007199254740992 (by decide)))) = true := by
  have hround : nearestDouble 9007199254740993 = nearestDouble 9007199254740992 := by
    decide +kernel
  refine ⟨by decide, fun field hfield => ⟨rfl, ?_⟩⟩
  refine (holds_integers_iff (a := 9007199254740993) (by decide) (by decide) rfl ?_ .eq).2 hround
  exact if_pos rfl

end Query

end RecordShelf

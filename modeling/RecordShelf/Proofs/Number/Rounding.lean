import Mathlib.Order.Monotone.Basic
import Mathlib.Tactic.Linarith
import Mathlib.Tactic.NormNum
import Mathlib.Tactic.Ring
import RecordShelf.Number.Decimal

/-!
# Rounding to the nearest rank

A quotient rounds to a rank when it lies between the midpoints to the two neighbouring magnitudes,
which belong to even ranks. `Double.nearestRank` computes the one rank to which a quotient rounds,
so that a decimal is read as the double whose interval holds it.
-/

namespace RecordShelf

namespace Double

theorem units_grid {m k : ℕ} (hm : m ≤ 2 ^ 53) (hk : k = 0 ∨ 2 ^ 52 ≤ m) :
    units (k * 2 ^ 52 + m) = m * 2 ^ k := by
  unfold units
  by_cases hsmall : k * 2 ^ 52 + m < 2 ^ 52
  · have hk0 : k = 0 := by omega
    rw [if_pos hsmall, hk0]
    omega
  · rw [if_neg hsmall]
    have hm52 : 2 ^ 52 ≤ m := by omega
    by_cases htop : m = 2 ^ 53
    · subst htop
      have hdiv : (k * 2 ^ 52 + 2 ^ 53) / 2 ^ 52 = k + 2 := by omega
      have hmod : (k * 2 ^ 52 + 2 ^ 53) % 2 ^ 52 = 0 := by omega
      rw [hdiv, hmod, show k + 2 - 1 = k + 1 by omega, pow_succ]
      ring
    · have hdiv : (k * 2 ^ 52 + m) / 2 ^ 52 = k + 1 := by omega
      have hmod : (k * 2 ^ 52 + m) % 2 ^ 52 = m - 2 ^ 52 := by omega
      rw [hdiv, hmod, show k + 1 - 1 = k by omega, show 2 ^ 52 + (m - 2 ^ 52) = m by omega]

/-- The distance from a magnitude to the next one. -/
def ulp (rank : ℕ) : ℕ := 2 ^ (rank / 2 ^ 52 - 1)

theorem ulp_pos (rank : ℕ) : 0 < ulp rank := Nat.two_pow_pos _

theorem units_eq_mul_ulp (rank : ℕ) :
    ∃ m, m < 2 ^ 53 ∧ units rank = m * ulp rank ∧ units (rank + 1) = (m + 1) * ulp rank := by
  by_cases h : rank < 2 ^ 52
  · have hu : ulp rank = 2 ^ 0 := by
      unfold ulp
      rw [Nat.div_eq_of_lt h]
    have h0 := units_grid (m := rank) (k := 0) (by omega) (Or.inl rfl)
    have h1 := units_grid (m := rank + 1) (k := 0) (by omega) (Or.inl rfl)
    rw [show 0 * 2 ^ 52 + rank = rank by omega] at h0
    rw [show 0 * 2 ^ 52 + (rank + 1) = rank + 1 by omega] at h1
    exact ⟨rank, by omega, by rw [hu, h0], by rw [hu, h1]⟩
  · obtain ⟨k, m, hm, hm', rfl⟩ : ∃ k m, 2 ^ 52 ≤ m ∧ m < 2 ^ 53 ∧ rank = k * 2 ^ 52 + m :=
      ⟨rank / 2 ^ 52 - 1, rank % 2 ^ 52 + 2 ^ 52, by omega, by omega, by omega⟩
    have hu : ulp (k * 2 ^ 52 + m) = 2 ^ k := by
      unfold ulp
      congr 1
      omega
    refine ⟨m, hm', ?_, ?_⟩
    · rw [hu, units_grid hm'.le (Or.inr hm)]
    · rw [hu, add_assoc, units_grid (by omega) (Or.inr (by omega))]

theorem units_succ (rank : ℕ) : units (rank + 1) = units rank + ulp rank := by
  obtain ⟨m, -, h0, h1⟩ := units_eq_mul_ulp rank
  rw [h0, h1]
  ring

theorem units_strictMono : StrictMono units :=
  strictMono_nat_of_lt_succ fun rank => by
    rw [units_succ]
    exact Nat.lt_add_of_pos_right (ulp_pos rank)

theorem units_succ_le (rank : ℕ) : units (rank + 1) ≤ 2 ^ 53 * ulp rank := by
  obtain ⟨m, hm, -, h1⟩ := units_eq_mul_ulp rank
  rw [h1]
  exact Nat.mul_le_mul_right _ hm

theorem units_pos {rank : ℕ} (h : 0 < rank) : 0 < units rank :=
  (Nat.zero_le _).trans_lt (units_strictMono h)

/-- The quotient, counted in least magnitudes, lies between the midpoints around a magnitude, which
count for even ranks only. -/
def RoundsTo (num den rank : ℕ) : Prop :=
  (units (rank - 1) + units rank) * den ≤ 2 * num ∧
    2 * num ≤ (units rank + units (rank + 1)) * den ∧
    (rank % 2 = 1 → (units (rank - 1) + units rank) * den < 2 * num ∧
      2 * num < (units rank + units (rank + 1)) * den)

/-- A greater quotient does not round to a lower rank. -/
theorem RoundsTo.le {num num' den r s : ℕ} (hden : 0 < den) (hnum : num ≤ num')
    (hr : RoundsTo num den r) (hs : RoundsTo num' den s) : r ≤ s := by
  by_contra hlt
  have hsr : s < r := Nat.lt_of_not_le hlt
  have h1 : units s ≤ units (r - 1) := units_strictMono.monotone (by omega)
  have h2 : units (s + 1) ≤ units r := units_strictMono.monotone (by omega)
  have hle : (units s + units (s + 1)) * den ≤ (units (r - 1) + units r) * den :=
    Nat.mul_le_mul_right _ (by omega)
  have hlow := hr.1
  have hhigh := hs.2.1
  by_cases hnext : r = s + 1
  · rcases Nat.mod_two_eq_zero_or_one s with he | ho
    · have := (hr.2.2 (by omega)).1
      omega
    · have := (hs.2.2 ho).2
      omega
  · have h3 : units (s + 1) < units r := units_strictMono (by omega)
    have hlt : (units s + units (s + 1)) * den < (units (r - 1) + units r) * den :=
      Nat.mul_lt_mul_of_pos_right (by omega) hden
    omega

theorem RoundsTo.unique {num den r s : ℕ} (hden : 0 < den) (hr : RoundsTo num den r)
    (hs : RoundsTo num den s) : r = s :=
  (hr.le hden le_rfl hs).antisymm (hs.le hden le_rfl hr)

/-- Whether a quotient rounds to a rank depends on its value alone. -/
theorem RoundsTo.congr {num den num' den' rank : ℕ} (hden : 0 < den) (hden' : 0 < den')
    (hv : num * den' = num' * den) (h : RoundsTo num den rank) : RoundsTo num' den' rank := by
  have hscale : ∀ u, u * den * den' = u * den' * den := fun u => by ring
  have hnum : 2 * num * den' = 2 * num' * den := by
    rw [mul_assoc, hv, mul_assoc]
  have hle : ∀ u, u * den ≤ 2 * num → u * den' ≤ 2 * num' := by
    intro u hu
    apply Nat.le_of_mul_le_mul_right _ hden
    rw [← hscale, ← hnum]
    exact Nat.mul_le_mul_right _ hu
  have hge : ∀ u, 2 * num ≤ u * den → 2 * num' ≤ u * den' := by
    intro u hu
    apply Nat.le_of_mul_le_mul_right _ hden
    rw [← hscale, ← hnum]
    exact Nat.mul_le_mul_right _ hu
  have hlt : ∀ u, u * den < 2 * num → u * den' < 2 * num' := by
    intro u hu
    apply Nat.lt_of_mul_lt_mul_right (a := den)
    rw [← hscale, ← hnum]
    exact Nat.mul_lt_mul_of_pos_right hu hden'
  have hgt : ∀ u, 2 * num < u * den → 2 * num' < u * den' := by
    intro u hu
    apply Nat.lt_of_mul_lt_mul_right (a := den)
    rw [← hscale, ← hnum]
    exact Nat.mul_lt_mul_of_pos_right hu hden'
  exact ⟨hle _ h.1, hge _ h.2.1, fun ho => ⟨hlt _ (h.2.2 ho).1, hgt _ (h.2.2 ho).2⟩⟩

end Double

/-- The rounded quotient is at most half a step away, and an odd one less than that. -/
theorem roundHalfEven_bounds (a : ℕ) {b : ℕ} (hb : 0 < b) :
    2 * b * roundHalfEven a b ≤ 2 * a + b ∧ 2 * a ≤ 2 * b * roundHalfEven a b + b ∧
      (roundHalfEven a b % 2 = 1 →
        2 * b * roundHalfEven a b < 2 * a + b ∧ 2 * a < 2 * b * roundHalfEven a b + b) := by
  have ha : b * (a / b) + a % b = a := Nat.div_add_mod a b
  have hr : a % b < b := Nat.mod_lt a hb
  unfold roundHalfEven
  generalize a / b = q at *
  generalize a % b = r at *
  have hq : 2 * b * (q + 1) = 2 * (b * q) + 2 * b := by ring
  have hq' : 2 * b * q = 2 * (b * q) := by ring
  dsimp only
  split_ifs with h
  · rw [hq']
    rcases h with h | ⟨h, he⟩
    · exact ⟨by omega, by omega, fun _ => ⟨by omega, by omega⟩⟩
    · exact ⟨by omega, by omega, fun ho => by omega⟩
  · rw [hq]
    have h1 : b ≤ 2 * r := by omega
    have h2 : 2 * r = b → q % 2 = 1 := by omega
    exact ⟨by omega, by omega, fun ho => ⟨by omega, by omega⟩⟩

namespace Double

/-- The number of binary digits that rounding drops, with the bounds of what remains. -/
theorem scaled_bounds (a : ℕ) {den : ℕ} (hden : 0 < den) :
    let k := (a / den).log2 - 52
    a < 2 ^ 53 * (den * 2 ^ k) ∧ (k = 0 ∨ 2 ^ 52 * (den * 2 ^ k) ≤ a) := by
  intro k
  have hlt : a / den < 2 ^ 53 * 2 ^ k := by
    refine Nat.lt_log2_self.trans_le ?_
    rw [← pow_add]
    exact Nat.pow_le_pow_right (by decide) (by omega)
  constructor
  · have := (Nat.div_lt_iff_lt_mul hden).1 hlt
    rwa [mul_comm den, ← mul_assoc]
  · by_cases hk : k = 0
    · exact Or.inl hk
    · apply Or.inr
      have hne : a / den ≠ 0 := by
        intro hz
        simp [k, hz] at hk
      have hge : 2 ^ 52 * 2 ^ k ≤ a / den := by
        rw [← pow_add, show 52 + k = (a / den).log2 by omega]
        exact Nat.log2_self_le hne
      have := (Nat.le_div_iff_mul_le hden).1 hge
      rwa [mul_comm den, ← mul_assoc]

/-- What remains has at most 53 binary digits or is the next power of two, and where digits are
dropped it has no fewer. -/
theorem rounded_bounds (a : ℕ) {den : ℕ} (hden : 0 < den) :
    let k := (a / den).log2 - 52
    roundHalfEven a (den * 2 ^ k) ≤ 2 ^ 53 ∧ (k = 0 ∨ 2 ^ 52 ≤ roundHalfEven a (den * 2 ^ k)) := by
  obtain ⟨hlt, hge⟩ := scaled_bounds a hden
  dsimp only at hlt hge ⊢
  generalize (a / den).log2 - 52 = k at *
  have hbpos : 0 < den * 2 ^ k := by positivity
  obtain ⟨h1, h2, -⟩ := roundHalfEven_bounds a hbpos
  generalize roundHalfEven a (den * 2 ^ k) = m at *
  constructor
  · by_contra hc
    have : (2 ^ 53 + 1) * (den * 2 ^ k) ≤ m * (den * 2 ^ k) := Nat.mul_le_mul_right _ (by omega)
    nlinarith
  · refine hge.imp_right fun hge => ?_
    by_contra hc
    have : (m + 1) * (den * 2 ^ k) ≤ 2 ^ 52 * (den * 2 ^ k) := Nat.mul_le_mul_right _ (by omega)
    nlinarith

section
variable {a den k m : ℕ} (hm53 : m ≤ 2 ^ 53) (hm52 : k = 0 ∨ 2 ^ 52 ≤ m)
include hm53 hm52

theorem units_grid_mul (den : ℕ) : units (k * 2 ^ 52 + m) * den = m * (den * 2 ^ k) := by
  rw [units_grid hm53 hm52]
  ring

/-- The midpoint above. The next magnitude is one step further, also where the steps get wider. -/
theorem le_midpoint_grid (hlt : a < 2 ^ 53 * (den * 2 ^ k))
    (hle : 2 * a ≤ 2 * (den * 2 ^ k) * m + den * 2 ^ k)
    (hodd : m % 2 = 1 → 2 * a < 2 * (den * 2 ^ k) * m + den * 2 ^ k) :
    2 * a ≤ (units (k * 2 ^ 52 + m) + units (k * 2 ^ 52 + m + 1)) * den ∧
      (m % 2 = 1 → 2 * a < (units (k * 2 ^ 52 + m) + units (k * 2 ^ 52 + m + 1)) * den) := by
  have hu := units_grid_mul hm53 hm52 den
  rw [add_mul, hu]
  by_cases htop : m = 2 ^ 53
  · have hmono : units (k * 2 ^ 52 + m) * den ≤ units (k * 2 ^ 52 + m + 1) * den :=
      Nat.mul_le_mul_right _ (units_strictMono.monotone (Nat.le_succ _))
    rw [hu] at hmono
    subst htop
    exact ⟨by omega, fun _ => by omega⟩
  · have hu' : units (k * 2 ^ 52 + m + 1) * den = (m + 1) * (den * 2 ^ k) := by
      rw [add_assoc, units_grid_mul (by omega) (by omega)]
    rw [hu']
    exact ⟨by nlinarith, fun ho => by nlinarith [hodd ho]⟩

/-- The midpoint below. At a power of two the magnitude below is nearer than a step, but the quotient
is not below the power. -/
theorem midpoint_grid_le (hden : 0 < den) (hge : k = 0 ∨ 2 ^ 52 * (den * 2 ^ k) ≤ a)
    (hle : 2 * (den * 2 ^ k) * m ≤ 2 * a + den * 2 ^ k)
    (hodd : m % 2 = 1 → 2 * (den * 2 ^ k) * m < 2 * a + den * 2 ^ k) :
    (units (k * 2 ^ 52 + m - 1) + units (k * 2 ^ 52 + m)) * den ≤ 2 * a ∧
      (m % 2 = 1 → (units (k * 2 ^ 52 + m - 1) + units (k * 2 ^ 52 + m)) * den < 2 * a) := by
  have hbpos : 0 < den * 2 ^ k := by positivity
  have hu := units_grid_mul hm53 hm52 den
  rw [add_mul, hu]
  by_cases hz : m = 0
  · have hk : k = 0 := by omega
    subst hz hk
    simp [units]
  · by_cases hedge : k = 0 ∨ 2 ^ 52 < m
    · have hu' : units (k * 2 ^ 52 + m - 1) * den = (m - 1) * (den * 2 ^ k) := by
        rw [Nat.add_sub_assoc (by omega), units_grid_mul (by omega) (by omega)]
      rw [hu']
      obtain ⟨n, rfl⟩ := Nat.exists_eq_succ_of_ne_zero hz
      rw [Nat.succ_sub_one]
      exact ⟨by nlinarith, fun ho => by nlinarith [hodd ho]⟩
    · have hm : m = 2 ^ 52 := by omega
      have hlt : units (k * 2 ^ 52 + m - 1) * den < units (k * 2 ^ 52 + m) * den :=
        Nat.mul_lt_mul_of_pos_right (units_strictMono (by omega)) hden
      have ha : 2 ^ 52 * (den * 2 ^ k) ≤ a := hge.resolve_left (by omega)
      rw [hu] at hlt
      subst hm
      exact ⟨by omega, fun _ => by omega⟩

end

theorem roundsTo_grid (a : ℕ) {den : ℕ} (hden : 0 < den) :
    let k := (a / den).log2 - 52
    RoundsTo a den (k * 2 ^ 52 + roundHalfEven a (den * 2 ^ k)) := by
  intro k
  obtain ⟨hlt, hge⟩ := scaled_bounds a hden
  obtain ⟨hm53, hm52⟩ := rounded_bounds a hden
  have hbpos : 0 < den * 2 ^ k := by positivity
  obtain ⟨hbelow, habove, hodd⟩ := roundHalfEven_bounds a hbpos
  obtain ⟨hhigh, hhighOdd⟩ := le_midpoint_grid hm53 hm52 hlt habove fun ho => (hodd ho).2
  obtain ⟨hlow, hlowOdd⟩ := midpoint_grid_le hm53 hm52 hden hge hbelow fun ho => (hodd ho).1
  refine ⟨hlow, hhigh, fun ho => ?_⟩
  have hparity : roundHalfEven a (den * 2 ^ k) % 2 = 1 := by omega
  exact ⟨hlowOdd hparity, hhighOdd hparity⟩

theorem nearestRank_eq_of_roundsTo {num den rank : ℕ} (hden : 0 < den)
    (h : RoundsTo (num * perOne) den rank) : nearestRank num den = rank :=
  (roundsTo_grid (num * perOne) hden).unique hden h

end Double

end RecordShelf

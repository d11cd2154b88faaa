import Mathlib.Tactic.Positivity
import RecordShelf.Number.Shortest
import RecordShelf.Proofs.Number.Rounding

/-!
# Shortest decimals round back

`DecimalRounds c g rank` says that the decimal `c * 10 ^ g` rounds to the magnitude of `rank`. The
search for the shortest decimal always ends with one that does: seventeen digits tell all doubles
apart, because the decimals of that length lie closer together than half the distance between two
neighbouring magnitudes.
-/

namespace RecordShelf

open Double

theorem two_pow_le_ten_pow {n k : ℕ} (h : n ≤ 3 * k) : 2 ^ n ≤ 10 ^ k := by
  calc 2 ^ n ≤ 2 ^ (3 * k) := Nat.pow_le_pow_right (by decide) h
    _ = 8 ^ k := by rw [pow_mul]; rfl
    _ ≤ 10 ^ k := Nat.pow_le_pow_left (by decide) k

def DecimalRounds (c : ℕ) (g : ℤ) (rank : ℕ) : Prop :=
  RoundsTo (c * 10 ^ g.toNat * perOne) (10 ^ (-g).toNat) rank

theorem decimalRounds_congr {c c' : ℕ} {g g' : ℤ} {rank : ℕ}
    (hv : c * 10 ^ (g.toNat + (-g').toNat) = c' * 10 ^ (g'.toNat + (-g).toNat))
    (h : DecimalRounds c g rank) : DecimalRounds c' g' rank := by
  refine RoundsTo.congr (Nat.pow_pos (by decide)) (Nat.pow_pos (by decide)) ?_ h
  rw [pow_add, pow_add] at hv
  calc c * 10 ^ g.toNat * perOne * 10 ^ (-g').toNat
      = c * (10 ^ g.toNat * 10 ^ (-g').toNat) * perOne := by ring
    _ = c' * 10 ^ g'.toNat * perOne * 10 ^ (-g).toNat := by rw [hv]; ring

/-- Zeros at the end of the digits can be traded for the exponent. -/
theorem decimalRounds_mul_pow {c k : ℕ} {g : ℤ} {rank : ℕ} :
    DecimalRounds (c * 10 ^ k) g rank ↔ DecimalRounds c (g + k) rank := by
  have hexp : k + (g.toNat + (-(g + k)).toNat) = (g + k).toNat + (-g).toNat := by omega
  have hv : c * 10 ^ k * 10 ^ (g.toNat + (-(g + k)).toNat) =
      c * 10 ^ ((g + k).toNat + (-g).toNat) := by
    rw [mul_assoc, ← pow_add, hexp]
  exact ⟨decimalRounds_congr hv, decimalRounds_congr hv.symm⟩

namespace Shortest

theorem rounds_eq_true_iff {rank c : ℕ} {g : ℤ} :
    rounds rank c g = true ↔ DecimalRounds c g rank := by
  unfold rounds DecimalRounds RoundsTo
  rcases Nat.mod_two_eq_zero_or_one rank with h | h
  · simp [h]
  · simp only [h, Nat.one_ne_zero, if_false, Bool.and_eq_true, decide_eq_true_eq, true_implies]
    constructor
    · rintro ⟨hlow, hhigh⟩
      exact ⟨hlow.le, hhigh.le, hlow, hhigh⟩
    · rintro ⟨-, -, h⟩
      exact h

theorem onGrid?_rounds {rank c : ℕ} {g : ℤ} (h : onGrid? rank g = some c) :
    DecimalRounds c g rank := by
  unfold onGrid? at h
  dsimp only at h
  rw [← rounds_eq_true_iff]
  split at h
  · rename_i h0 h1
    split_ifs at h
    · exact Option.some.inj h ▸ h1
    · exact Option.some.inj h ▸ h0
  · rename_i h0 h1
    exact Option.some.inj h ▸ h0
  · rename_i h0 h1
    exact Option.some.inj h ▸ h1
  · exact absurd h (by simp)

/-! ## Seventeen digits suffice -/

/-- On a grid finer than the precision one of the two grid points around a magnitude rounds to it. -/
theorem roundsTo_floor_or_succ {rank step den : ℕ} (hr : 0 < rank) (hstep : 0 < step)
    (hfine : 10 ^ 16 * step ≤ units rank * den) :
    RoundsTo (units rank * den / step * step) den rank ∨
      RoundsTo ((units rank * den / step + 1) * step) den rank := by
  obtain ⟨r, rfl⟩ : ∃ r, rank = r + 1 := ⟨rank - 1, by omega⟩
  have hdiv : step * (units (r + 1) * den / step) + units (r + 1) * den % step =
      units (r + 1) * den := Nat.div_add_mod _ _
  have hmod : units (r + 1) * den % step < step := Nat.mod_lt _ hstep
  generalize units (r + 1) * den / step = c at *
  generalize units (r + 1) * den % step = d at *
  -- Both neighbours are more than a grid step away, so half the distance exceeds half a step.
  have hbelow : units r * den + step < units (r + 1) * den := by
    have h1 : units (r + 1) * den ≤ 2 ^ 53 * (ulp r * den) := by
      rw [← mul_assoc]
      exact Nat.mul_le_mul_right _ (units_succ_le r)
    have h2 : units (r + 1) * den = units r * den + ulp r * den := by rw [units_succ, add_mul]
    omega
  have habove : units (r + 1) * den + step < units (r + 1 + 1) * den := by
    have h1 : units (r + 1) * den ≤ 2 ^ 53 * (ulp (r + 1) * den) := by
      rw [← mul_assoc]
      refine Nat.mul_le_mul_right _ (le_trans ?_ (units_succ_le (r + 1)))
      exact units_strictMono.monotone (Nat.le_succ _)
    have h2 : units (r + 1 + 1) * den = units (r + 1) * den + ulp (r + 1) * den := by
      rw [units_succ (r + 1), add_mul]
    omega
  have hc : step * c = c * step := mul_comm _ _
  have hc' : (c + 1) * step = c * step + step := by ring
  unfold RoundsTo
  simp only [Nat.add_sub_cancel, add_mul]
  by_cases hnear : 2 * d ≤ step
  · exact Or.inl ⟨by omega, by omega, fun _ => ⟨by omega, by omega⟩⟩
  · exact Or.inr ⟨by omega, by omega, fun _ => ⟨by omega, by omega⟩⟩

theorem onGrid?_isSome {rank : ℕ} {lead : ℤ} (hr : 0 < rank) (hlead : 1 ≤ steps rank lead) :
    (onGrid? rank (lead - 16)).isSome = true := by
  have hpos : 0 < 10 ^ (lead - 16).toNat * perOne :=
    Nat.mul_pos (Nat.pow_pos (by decide)) perOne_pos
  have hfine : 10 ^ 16 * (10 ^ (lead - 16).toNat * perOne) ≤
      units rank * 10 ^ (-(lead - 16)).toNat := by
    have hden : 0 < perOne * 10 ^ lead.toNat :=
      Nat.mul_pos perOne_pos (Nat.pow_pos (by decide))
    have hle : perOne * 10 ^ lead.toNat ≤ units rank * 10 ^ (-lead).toNat := by
      have := (Nat.le_div_iff_mul_le hden).1 hlead
      rwa [one_mul] at this
    have hexp : 16 + (lead - 16).toNat + (-lead).toNat =
        lead.toNat + (-(lead - 16)).toNat := by omega
    apply Nat.le_of_mul_le_mul_right _ (Nat.pow_pos (n := (-lead).toNat) (by decide : 0 < 10))
    calc 10 ^ 16 * (10 ^ (lead - 16).toNat * perOne) * 10 ^ (-lead).toNat
        = perOne * (10 ^ 16 * 10 ^ (lead - 16).toNat * 10 ^ (-lead).toNat) := by ring
      _ = perOne * 10 ^ lead.toNat * 10 ^ (-(lead - 16)).toNat := by
          rw [← pow_add, ← pow_add, hexp, pow_add, mul_assoc]
      _ ≤ units rank * 10 ^ (-lead).toNat * 10 ^ (-(lead - 16)).toNat :=
          Nat.mul_le_mul_right _ hle
      _ = units rank * 10 ^ (-(lead - 16)).toNat * 10 ^ (-lead).toNat := by ring
  have hsteps : steps rank (lead - 16) =
      units rank * 10 ^ (-(lead - 16)).toNat / (10 ^ (lead - 16).toNat * perOne) := by
    unfold steps
    rw [mul_comm perOne]
  have hfound := roundsTo_floor_or_succ hr hpos hfine
  rw [← hsteps, ← mul_assoc, ← mul_assoc] at hfound
  have hrounds : rounds rank (steps rank (lead - 16)) (lead - 16) = true ∨
      rounds rank (steps rank (lead - 16) + 1) (lead - 16) = true :=
    hfound.imp rounds_eq_true_iff.2 rounds_eq_true_iff.2
  unfold onGrid?
  dsimp only
  split <;> simp_all

/-! ## The leading exponent -/

theorem log2_units_le {rank : ℕ} (hr : 0 < rank) (htop : rank < top) :
    (units rank).log2 ≤ 2098 := by
  have hne : units rank ≠ 0 := (units_pos hr).ne'
  obtain ⟨m, hm, hu, -⟩ := units_eq_mul_ulp rank
  have hlt : units rank < 2 ^ (53 + (rank / 2 ^ 52 - 1)) := by
    rw [hu, pow_add]
    exact Nat.mul_lt_mul_of_pos_right hm (ulp_pos rank)
  have hlog := (Nat.log2_lt hne).2 hlt
  unfold top at htop
  omega

/-- `10 ^ 59` is just below `2 ^ 196`. -/
theorem ten_pow_le_two_pow {a n : ℕ} (h : 196 * a ≤ 59 * n) : 10 ^ a ≤ 2 ^ n := by
  apply le_of_pow_le_pow_left₀ (n := 59) (by decide) (Nat.zero_le _)
  calc (10 ^ a) ^ 59 = (10 ^ 59) ^ a := by rw [← pow_mul, ← pow_mul, mul_comm]
    _ ≤ (2 ^ 196) ^ a := Nat.pow_le_pow_left (by norm_num) a
    _ = 2 ^ (196 * a) := by rw [← pow_mul]
    _ ≤ 2 ^ (59 * n) := Nat.pow_le_pow_right (by decide) h
    _ = (2 ^ n) ^ 59 := by rw [← pow_mul, mul_comm]

/-- `10 ^ 28` is just above `2 ^ 93`. -/
theorem two_pow_le_ten_pow_of_close {a n : ℕ} (h : 28 * n ≤ 93 * a) : 2 ^ n ≤ 10 ^ a := by
  apply le_of_pow_le_pow_left₀ (n := 28) (by decide) (Nat.zero_le _)
  calc (2 ^ n) ^ 28 = 2 ^ (28 * n) := by rw [← pow_mul, mul_comm]
    _ ≤ 2 ^ (93 * a) := Nat.pow_le_pow_right (by decide) h
    _ = (2 ^ 93) ^ a := by rw [← pow_mul]
    _ ≤ (10 ^ 28) ^ a := Nat.pow_le_pow_left (by norm_num) a
    _ = (10 ^ a) ^ 28 := by rw [← pow_mul, ← pow_mul, mul_comm]

/-- A power of ten that the binary logarithm puts below a magnitude. -/
theorem one_le_steps_of_log2 {rank : ℕ} (hr : 0 < rank) (htop : rank < top) :
    1 ≤ steps rank (((units rank).log2 - 1074 : ℤ) * 30103 / 100000 - 1) := by
  have hlog := log2_units_le hr htop
  have hself : 2 ^ (units rank).log2 ≤ units rank := Nat.log2_self_le (units_pos hr).ne'
  obtain ⟨p, hp⟩ : ∃ p, p = 1074 := ⟨_, rfl⟩
  have hone := perOne_eq_two_pow hp
  generalize (units rank).log2 = l at *
  obtain ⟨a, ha⟩ : ∃ a : ℤ, a = (l - 1074 : ℤ) * 30103 / 100000 - 1 := ⟨_, rfl⟩
  rw [← ha]
  unfold steps
  rw [Nat.le_div_iff_mul_le (Nat.mul_pos perOne_pos (Nat.pow_pos (by decide))), one_mul, hone]
  rcases le_or_gt 0 a with hnonneg | hneg
  · have hpow : 10 ^ a.toNat ≤ 2 ^ (l - p) := ten_pow_le_two_pow (by omega)
    calc 2 ^ p * 10 ^ a.toNat ≤ 2 ^ p * 2 ^ (l - p) := Nat.mul_le_mul_left _ hpow
      _ = 2 ^ l := by rw [← pow_add, Nat.add_sub_cancel' (by omega)]
      _ ≤ units rank := hself
      _ = units rank * 10 ^ (-a).toNat := by
          rw [show (-a).toNat = 0 by omega, pow_zero, mul_one]
  · have hpow : 2 ^ (p - l) ≤ 10 ^ (-a).toNat := two_pow_le_ten_pow_of_close (by omega)
    calc 2 ^ p * 10 ^ a.toNat = 2 ^ p := by
          rw [show a.toNat = 0 by omega, pow_zero, mul_one]
      _ ≤ 2 ^ (l + (p - l)) := Nat.pow_le_pow_right (by decide) (by omega)
      _ = 2 ^ l * 2 ^ (p - l) := pow_add _ _ _
      _ ≤ units rank * 10 ^ (-a).toNat := Nat.mul_le_mul hself hpow

theorem one_le_steps_leadingExponent {rank : ℕ} (hr : 0 < rank) (htop : rank < top) :
    1 ≤ steps rank (leadingExponent rank) := by
  unfold leadingExponent
  dsimp only
  generalize hguess : ((units rank).log2 - 1074 : ℤ) * 30103 / 100000 = guess
  cases hfind : [guess + 1, guess].find? fun p => decide (steps rank p ≥ 1) with
  | none =>
    rw [Option.getD_none, ← hguess]
    exact one_le_steps_of_log2 hr htop
  | some p =>
    rw [Option.getD_some]
    exact of_decide_eq_true (List.find?_some (p := fun p => decide (steps rank p ≥ 1)) hfind)

/-! ## The search -/

theorem search_rounds {rank : ℕ} {lead : ℤ} (h : (onGrid? rank (lead - 16)).isSome = true)
    (k : ℕ) : DecimalRounds (search rank lead (k + 1)).1 (search rank lead (k + 1)).2 rank := by
  induction k with
  | zero =>
    obtain ⟨c, hc⟩ := Option.isSome_iff_exists.1 h
    have hs : search rank lead 1 = (c, lead - 16) := by
      unfold search
      simp [hc]
    rw [hs]
    exact onGrid?_rounds hc
  | succ k ih =>
    rw [search]
    cases hc : onGrid? rank (lead - ((16 - (k + 1) : ℕ) : ℤ)) with
    | none => exact ih
    | some c => exact onGrid?_rounds hc

theorem search_leadingExponent_rounds {rank : ℕ} (hr : 0 < rank) (htop : rank < top) :
    DecimalRounds (search rank (leadingExponent rank) 17).1
      (search rank (leadingExponent rank) 17).2 rank :=
  search_rounds (onGrid?_isSome hr (one_le_steps_leadingExponent hr htop)) 16

end Shortest

end RecordShelf

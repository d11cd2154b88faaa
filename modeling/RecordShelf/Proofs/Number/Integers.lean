import RecordShelf.Json.Number
import RecordShelf.Proofs.Number.Rounding

/-!
# Integers as doubles

An integer becomes the double that has its first 53 binary digits, rounded half to even. Doubles of
integers are ordered like these rounded integers; up to 2 ^ 53 they are the integers themselves.
-/

namespace RecordShelf

theorem roundHalfEven_one (a : ℕ) : roundHalfEven a 1 = a := by
  simp [roundHalfEven, Nat.mod_one]

theorem roundHalfEven_mul_right (a b : ℕ) {c : ℕ} (hc : 0 < c) :
    roundHalfEven (a * c) (b * c) = roundHalfEven a b := by
  have hlt : 2 * (a % b * c) < b * c ↔ 2 * (a % b) < b := by
    rw [← mul_assoc]
    exact Nat.mul_lt_mul_right hc
  have heq : 2 * (a % b * c) = b * c ↔ 2 * (a % b) = b := by
    rw [← mul_assoc]
    exact Nat.mul_left_inj hc.ne'
  simp only [roundHalfEven, Nat.mul_div_mul_right _ _ hc, Nat.mul_mod_mul_right, hlt, heq]

/-- The number with its first 53 binary digits, the rest rounded half to even. -/
def roundSignificant (n : ℕ) : ℕ :=
  roundHalfEven n (2 ^ (n.log2 - 52)) * 2 ^ (n.log2 - 52)

theorem roundSignificant_of_lt {n : ℕ} (h : n < 2 ^ 53) : roundSignificant n = n := by
  have hlog : n.log2 - 52 = 0 := by
    rcases Nat.eq_zero_or_pos n with rfl | hpos
    · rfl
    · have := (Nat.log2_lt hpos.ne').2 h
      omega
  rw [roundSignificant, hlog, pow_zero, roundHalfEven_one, mul_one]

/-- The integer with its first 53 binary digits, the rest rounded half to even. -/
def nearestDouble (n : ℤ) : ℤ :=
  if n < 0 then -roundSignificant n.natAbs else roundSignificant n.natAbs

namespace Double

theorem log2_mul_two_pow {n : ℕ} (hn : n ≠ 0) (p : ℕ) : (n * 2 ^ p).log2 = n.log2 + p := by
  have hpos : 0 < 2 ^ p := Nat.two_pow_pos p
  rw [Nat.log2_eq_iff (Nat.mul_ne_zero hn hpos.ne')]
  constructor
  · rw [pow_add]
    exact Nat.mul_le_mul_right _ (Nat.log2_self_le hn)
  · rw [show n.log2 + p + 1 = n.log2 + 1 + p by omega, pow_add]
    exact Nat.mul_lt_mul_of_pos_right Nat.lt_log2_self hpos

/-- Rounding does not depend on how many zeros stand behind the binary digits of a number. -/
theorem roundSignificant_mul_two_pow {n : ℕ} (hn : n ≠ 0) (p : ℕ) :
    roundSignificant (n * 2 ^ p) = roundSignificant n * 2 ^ p := by
  have hlog := log2_mul_two_pow hn p
  rcases Nat.lt_or_ge n.log2 52 with hsmall | hlarge
  · have hlt : n < 2 ^ 53 :=
      Nat.lt_log2_self.trans_le (Nat.pow_le_pow_right Nat.two_pos (Nat.succ_le_succ hsmall.le))
    rw [roundSignificant_of_lt hlt, roundSignificant, hlog]
    generalize hk : n.log2 + p - 52 = k
    have hsplit : n * 2 ^ p = n * 2 ^ (p - k) * 2 ^ k := by
      rw [mul_assoc, ← pow_add, Nat.sub_add_cancel (by omega)]
    have hround := roundHalfEven_mul_right (n * 2 ^ (p - k)) 1 (Nat.two_pow_pos k)
    rw [one_mul, roundHalfEven_one] at hround
    rw [hsplit, hround]
  · rw [roundSignificant, roundSignificant, hlog, Nat.sub_add_comm hlarge, pow_add,
      roundHalfEven_mul_right _ _ (Nat.two_pow_pos p), mul_assoc]

theorem units_rounded (a : ℕ) :
    units (((a / 1).log2 - 52) * 2 ^ 52 + roundHalfEven a (1 * 2 ^ ((a / 1).log2 - 52))) =
      roundSignificant a := by
  obtain ⟨hm, hk⟩ := rounded_bounds a Nat.one_pos
  rw [units_grid hm hk, Nat.div_one, one_mul, roundSignificant]

/-- The double of a natural number has the magnitude of the rounded number. -/
theorem units_nearestRank (n : ℕ) : units (nearestRank n 1) = roundSignificant n * perOne := by
  obtain ⟨p, hp⟩ : ∃ p, p = 1074 := ⟨1074, rfl⟩
  have hunits : units (nearestRank n 1) = roundSignificant (n * perOne) :=
    units_rounded (n * perOne)
  rw [hunits]
  rcases Nat.eq_zero_or_pos n with rfl | hpos
  · rw [zero_mul, roundSignificant_of_lt (Nat.two_pow_pos 53), zero_mul]
  · rw [perOne_eq_two_pow hp, roundSignificant_mul_two_pow hpos.ne']

theorem nearestRank_mono {n m : ℕ} (h : n ≤ m) : nearestRank n 1 ≤ nearestRank m 1 :=
  RoundsTo.le Nat.one_pos (Nat.mul_le_mul_right perOne h)
    (roundsTo_grid (n * perOne) Nat.one_pos) (roundsTo_grid (m * perOne) Nat.one_pos)

/-- Numbers of 64 bits become finite doubles. -/
theorem nearestRank_lt_top {n : ℕ} (h : n < 2 ^ 64) : nearestRank n 1 < top := by
  obtain ⟨p, hp⟩ : ∃ p, p = 1074 := ⟨1074, rfl⟩
  obtain ⟨hm, -⟩ := rounded_bounds (n * perOne) Nat.one_pos
  have hrank : nearestRank n 1 = ((n * perOne / 1).log2 - 52) * 2 ^ 52 +
      roundHalfEven (n * perOne) (1 * 2 ^ ((n * perOne / 1).log2 - 52)) := rfl
  have hlog : (n * perOne / 1).log2 < 64 + p := by
    rw [Nat.div_one, perOne_eq_two_pow hp]
    rcases Nat.eq_zero_or_pos n with rfl | hpos
    · rw [zero_mul, Nat.log2_zero]
      omega
    · rw [log2_mul_two_pow hpos.ne']
      exact Nat.add_lt_add_right ((Nat.log2_lt hpos.ne').2 h) p
  rw [hrank, top]
  omega

theorem nearestRank_lt_iff {n m : ℕ} :
    nearestRank n 1 < nearestRank m 1 ↔ roundSignificant n < roundSignificant m := by
  rw [← units_strictMono.lt_iff_lt, units_nearestRank, units_nearestRank]
  exact Nat.mul_lt_mul_right perOne_pos

end Double

theorem roundSignificant_mono {n m : ℕ} (h : n ≤ m) : roundSignificant n ≤ roundSignificant m :=
  Nat.le_of_not_lt fun hlt =>
    Nat.not_lt_of_le (Double.nearestRank_mono h) (Double.nearestRank_lt_iff.2 hlt)

theorem nearestDouble_mono {a b : ℤ} (h : a ≤ b) : nearestDouble a ≤ nearestDouble b := by
  rw [nearestDouble, nearestDouble]
  split_ifs with ha hb hb
  · have := roundSignificant_mono (n := b.natAbs) (m := a.natAbs) (by omega)
    omega
  · omega
  · omega
  · have := roundSignificant_mono (n := a.natAbs) (m := b.natAbs) (by omega)
    omega

/-- Up to 2 ^ 53 integers are doubles. -/
theorem nearestDouble_eq_self {n : ℤ} (h : n.natAbs ≤ 2 ^ 53) : nearestDouble n = n := by
  have hround : roundSignificant n.natAbs = n.natAbs := by
    rcases h.lt_or_eq with hlt | heq
    · exact roundSignificant_of_lt hlt
    · rw [heq]
      rfl
  rw [nearestDouble, hround]
  split_ifs <;> omega

namespace Double

theorem position_ofInt {n : ℤ} (h : fits64 n) : (ofInt n).position =
    some (if n < 0 then -(nearestRank n.natAbs 1 : ℤ) else nearestRank n.natAbs 1) := by
  have hrank : min (nearestRank n.natAbs 1) top = nearestRank n.natAbs 1 := by
    obtain ⟨hlow, hhigh⟩ := h
    exact min_eq_left (nearestRank_lt_top (by omega)).le
  simp only [ofInt, ofRatio, position, hrank, decide_eq_true_eq]

theorem position_lt_iff {a b : ℤ} :
    ((if a < 0 then -(nearestRank a.natAbs 1 : ℤ) else nearestRank a.natAbs 1) <
      if b < 0 then -(nearestRank b.natAbs 1 : ℤ) else nearestRank b.natAbs 1) ↔
      nearestDouble a < nearestDouble b := by
  have hlt : nearestRank a.natAbs 1 < nearestRank b.natAbs 1 ↔
      roundSignificant a.natAbs < roundSignificant b.natAbs := nearestRank_lt_iff
  have hgt : nearestRank b.natAbs 1 < nearestRank a.natAbs 1 ↔
      roundSignificant b.natAbs < roundSignificant a.natAbs := nearestRank_lt_iff
  have hzero : ∀ n, nearestRank n 1 = 0 ↔ roundSignificant n = 0 := by
    intro n
    have hunits : units 0 = 0 := rfl
    rw [← units_strictMono.injective.eq_iff, units_nearestRank, hunits, Nat.mul_eq_zero,
      or_iff_left perOne_pos.ne']
  have hza := hzero a.natAbs
  have hzb := hzero b.natAbs
  rw [nearestDouble, nearestDouble]
  split_ifs <;> omega

/-- Doubles of integers are ordered like the rounded integers. -/
theorem compare_ofInt {a b : ℤ} (ha : fits64 a) (hb : fits64 b) :
    (ofInt a).compare? (ofInt b) = some (compare (nearestDouble a) (nearestDouble b)) := by
  have hlt := @position_lt_iff a b
  have hgt := @position_lt_iff b a
  rw [compare?, position_ofInt ha, position_ofInt hb]
  refine congrArg some ?_
  rcases lt_trichotomy (nearestDouble a) (nearestDouble b) with h | h | h
  · rw [compare_lt_iff_lt.2 h, compare_lt_iff_lt.2 (hlt.2 h)]
  · rw [compare_eq_iff_eq.2 h, compare_eq_iff_eq]
    omega
  · rw [compare_gt_iff_gt.2 h, compare_gt_iff_gt.2 (hgt.2 h)]

theorem same_ofInt {a b : ℤ} (ha : fits64 a) (hb : fits64 b) :
    (ofInt a).same (ofInt b) = decide (nearestDouble a = nearestDouble b) := by
  have hlt := @position_lt_iff a b
  have hgt := @position_lt_iff b a
  rw [same, position_ofInt ha, position_ofInt hb, Bool.eq_iff_iff, decide_eq_true_eq]
  refine beq_iff_eq.trans ?_
  omega

end Double

end RecordShelf

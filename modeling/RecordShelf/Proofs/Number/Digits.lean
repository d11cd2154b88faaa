import RecordShelf.Proofs.Number.Shortest

/-!
# Decimal digits

Texts of digits and their values, and the decimals that denote a given double: whatever decimal
rounds to a rank is read as that double, so the digits of `Shortest.digits` are read as the double
that they were made from.
-/

namespace RecordShelf

theorem isDigit_of_mem_decimalDigits {n : ℕ} {c : Char} (hc : c ∈ decimalDigits n) :
    c.isDigit = true :=
  Nat.isDigit_of_mem_toDigits (by decide) (by decide) hc

theorem decimalDigits_ne_nil (n : ℕ) : decimalDigits n ≠ [] := Nat.toDigits_ne_nil

@[simp] theorem ofDecimalDigits_decimalDigits (n : ℕ) : ofDecimalDigits (decimalDigits n) = n :=
  Nat.ofDigitChars_ten_toDigits

theorem head?_decimalDigits_ne {n : ℕ} (h : 0 < n) : (decimalDigits n).head? ≠ some '0' := by
  induction n using Nat.strong_induction_on with
  | _ n ih =>
    unfold decimalDigits at *
    by_cases hlt : n < 10
    · rw [Nat.toDigits_of_lt_base hlt]
      have hdigit : ∀ d < 10, 0 < d → Nat.digitChar d ≠ '0' := by decide
      simpa using hdigit n hlt h
    · rw [Nat.toDigits_of_base_le (by decide) (by omega), List.head?_append]
      have hne := ih (n / 10) (by omega) (by omega)
      cases hd : (Nat.toDigits 10 (n / 10)).head? with
      | none => exact absurd (List.head?_eq_none_iff.1 hd) Nat.toDigits_ne_nil
      | some c => simpa [hd] using hne

theorem lt_pow_length_decimalDigits (n : ℕ) : n < 10 ^ (decimalDigits n).length :=
  (Nat.length_toDigits_le_iff (by decide) Nat.length_toDigits_pos).1 le_rfl

theorem pow_length_decimalDigits_le {n : ℕ} (h : 0 < n) :
    10 ^ ((decimalDigits n).length - 1) ≤ n := by
  by_cases hone : (decimalDigits n).length - 1 = 0
  · rw [hone]
    exact h
  · have := mt (Nat.length_toDigits_le_iff (b := 10) (n := n) (by decide)
      (by omega : 0 < (decimalDigits n).length - 1)).2
    unfold decimalDigits at *
    omega

theorem ofDecimalDigits_append_zeros (ds : List Char) (z : ℕ) :
    ofDecimalDigits (ds ++ List.replicate z '0') = ofDecimalDigits ds * 10 ^ z := by
  unfold ofDecimalDigits
  rw [Nat.ofDigitChars_append, Nat.ofDigitChars_replicate_zero, mul_comm]

theorem ofDecimalDigits_zeros_append (z : ℕ) (ds : List Char) :
    ofDecimalDigits (List.replicate z '0' ++ ds) = ofDecimalDigits ds := by
  unfold ofDecimalDigits
  rw [Nat.ofDigitChars_append, Nat.ofDigitChars_replicate_zero, mul_zero]

/-! ## Runs of digits at the front of a text -/

/-- The text does not go on with a digit. -/
def NoDigitFirst (rest : List Char) : Prop := ∀ c ∈ rest.head?, c.isDigit = false

theorem noDigitFirst_cons {c : Char} {rest : List Char} (h : c.isDigit = false) :
    NoDigitFirst (c :: rest) := by
  intro d hd
  rw [List.head?_cons, Option.mem_some_iff] at hd
  exact hd ▸ h

theorem NoDigitFirst.takeWhile_eq {rest : List Char} (h : NoDigitFirst rest) :
    rest.takeWhile Char.isDigit = [] := by
  cases rest with
  | nil => rfl
  | cons c rest =>
    have hc : c.isDigit = false := h c rfl
    simp [hc]

theorem NoDigitFirst.dropWhile_eq {rest : List Char} (h : NoDigitFirst rest) :
    rest.dropWhile Char.isDigit = rest := by
  cases rest with
  | nil => rfl
  | cons c rest =>
    have hc : c.isDigit = false := h c rfl
    simp [hc]

theorem takeDigits_append {ds rest : List Char} (hds : ∀ c ∈ ds, c.isDigit = true)
    (hrest : NoDigitFirst rest) : takeDigits (ds ++ rest) = (ds, rest) := by
  unfold takeDigits
  rw [List.takeWhile_append_of_pos hds, List.dropWhile_append_of_pos hds, hrest.takeWhile_eq,
    hrest.dropWhile_eq, List.append_nil]

/-! ## Digits that denote a double -/

/-- Digits of a positive number as they are written: at least one, and the first is not zero. -/
structure Significant (ds : List Char) : Prop where
  nonempty : ds ≠ []
  digits : ∀ c ∈ ds, c.isDigit = true
  head : ds.head? ≠ some '0'

theorem significant_decimalDigits {n : ℕ} (h : 0 < n) : Significant (decimalDigits n) :=
  ⟨decimalDigits_ne_nil n, fun _ hc => isDigit_of_mem_decimalDigits hc, head?_decimalDigits_ne h⟩

theorem exists_eq_append_zeros (ds : List Char) :
    ∃ z, ds = (ds.reverse.dropWhile (· == '0')).reverse ++ List.replicate z '0' := by
  refine ⟨(ds.reverse.takeWhile (· == '0')).length, ?_⟩
  have hzeros : ds.reverse.takeWhile (· == '0') =
      List.replicate (ds.reverse.takeWhile (· == '0')).length '0' :=
    List.eq_replicate_of_mem fun c hc => by
      simpa using List.all_eq_true.1 List.all_takeWhile c hc
  have hsplit := List.takeWhile_append_dropWhile (p := (· == '0')) (l := ds.reverse)
  rw [← List.reverse_inj, List.reverse_append, List.reverse_reverse, List.reverse_replicate,
    ← hzeros, hsplit]

theorem Significant.append {ds es : List Char} (h : Significant ds)
    (hes : ∀ c ∈ es, c.isDigit = true) : Significant (ds ++ es) := by
  refine ⟨List.append_ne_nil_of_left_ne_nil h.nonempty _, fun c hc => ?_, ?_⟩
  · exact (List.mem_append.1 hc).elim (h.digits c) (hes c)
  · rw [List.head?_append_of_ne_nil _ h.nonempty]
    exact h.head

theorem Significant.take {ds : List Char} (h : Significant ds) {k : ℕ} (hk : 0 < k) :
    Significant (ds.take k) := by
  refine ⟨?_, fun c hc => h.digits c (List.mem_of_mem_take hc), ?_⟩
  · simp [h.nonempty, hk.ne']
  · rw [List.head?_take, if_neg hk.ne']
    exact h.head

theorem significant_of_append_zeros {ds : List Char} {z : ℕ}
    (h : Significant (ds ++ List.replicate z '0')) : Significant ds := by
  have hne : ds ≠ [] := by
    rintro rfl
    cases z with
    | zero => exact h.nonempty rfl
    | succ z => exact h.head rfl
  refine ⟨hne, fun c hc => h.digits c (List.mem_append_left _ hc), ?_⟩
  have := h.head
  rwa [List.head?_append_of_ne_nil _ hne] at this

namespace Shortest
open Double

theorem normalize_rounds {rank c : ℕ} {g : ℤ} (hc : 0 < c) (h : DecimalRounds c g rank) :
    Significant (normalize c g).1 ∧ DecimalRounds (ofDecimalDigits (normalize c g).1)
      ((normalize c g).2 + 1 - (normalize c g).1.length) rank := by
  unfold normalize
  dsimp only
  obtain ⟨z, hz⟩ := exists_eq_append_zeros (decimalDigits c)
  have hsig := significant_decimalDigits hc
  have hvalue := ofDecimalDigits_decimalDigits c
  have hlen := congrArg List.length hz
  rw [List.length_append, List.length_replicate] at hlen
  generalize ((decimalDigits c).reverse.dropWhile (· == '0')).reverse = ds at *
  refine ⟨significant_of_append_zeros (z := z) (hz ▸ hsig), ?_⟩
  rw [hz, ofDecimalDigits_append_zeros] at hvalue
  rw [← hvalue, decimalRounds_mul_pow] at h
  rwa [show ((decimalDigits c).length : ℤ) - 1 + g + 1 - ds.length = g + z by omega]

theorem pos_of_decimalRounds {rank c : ℕ} {g : ℤ} (hr : 0 < rank) (h : DecimalRounds c g rank) :
    0 < c := by
  apply Nat.pos_of_ne_zero
  rintro rfl
  have hlow := h.1
  have hpos : 0 < (units (rank - 1) + units rank) * 10 ^ (-g).toNat :=
    Nat.mul_pos (Nat.add_pos_right _ (units_pos hr)) (Nat.pow_pos (by decide))
  simp only [zero_mul, mul_zero] at hlow
  omega

/-- The shortest digits of a positive magnitude, with the exponent of the first one. -/
theorem digits_rounds {rank : ℕ} (hr : 0 < rank) (htop : rank < top) :
    Significant (digits rank).1 ∧ DecimalRounds (ofDecimalDigits (digits rank).1)
      ((digits rank).2 + 1 - (digits rank).1.length) rank := by
  have h := search_leadingExponent_rounds hr htop
  exact normalize_rounds (pos_of_decimalRounds hr h) h

end Shortest

/-! ## Reading a decimal -/

open Double

theorem ofRatio_eq_of_roundsTo {negative : Bool} {num den rank : ℕ} (hden : 0 < den)
    (hrank : rank ≤ top) (h : RoundsTo (num * perOne) den rank) :
    ofRatio negative num den = .signed negative rank hrank := by
  unfold ofRatio
  simp [nearestRank_eq_of_roundsTo hden h, min_eq_left hrank]

section
variable {rank c : ℕ} {g : ℤ}

/-- A positive magnitude is no smaller than the least one, so its digits do not stand too far behind
the point. -/
theorem le_places (hr : 0 < rank) (h : DecimalRounds c g rank) :
    -400 ≤ ((decimalDigits c).length : ℤ) + g := by
  have hlt := lt_pow_length_decimalDigits c
  have hlow := h.1
  obtain ⟨p, hp⟩ : ∃ p, p = 1074 := ⟨1074, rfl⟩
  rw [perOne_eq_two_pow hp] at hlow
  generalize (decimalDigits c).length = l at *
  by_contra hcon
  have hpos := units_pos hr
  have h1 : 10 ^ (-g).toNat ≤ 2 * (c * 10 ^ g.toNat * 2 ^ p) :=
    le_trans (Nat.le_mul_of_pos_left _ (by omega)) hlow
  rw [show g.toNat = 0 by omega, pow_zero, mul_one] at h1
  have h2 : 2 * (c * 2 ^ p) < 2 * (10 ^ l * 2 ^ p) := by
    have := Nat.mul_lt_mul_of_pos_right hlt (Nat.two_pow_pos p)
    omega
  have h3 : 2 * (10 ^ l * 2 ^ p) ≤ 10 ^ (-g).toNat := by
    calc 2 * (10 ^ l * 2 ^ p) = 10 ^ l * 2 ^ (p + 1) := by rw [pow_succ]; ring
      _ ≤ 10 ^ l * 10 ^ 400 := Nat.mul_le_mul_left _ (two_pow_le_ten_pow (by omega))
      _ = 10 ^ (l + 400) := by rw [pow_add]
      _ ≤ 10 ^ (-g).toNat := Nat.pow_le_pow_right (by decide) (by omega)
  omega

/-- The midpoint above a finite magnitude is below the powers of two that a double does not reach. -/
theorem midpoint_le (htop : rank < top) : ∃ e, e ≤ 2046 ∧
    units rank + units (rank + 1) ≤ 2 * 2 ^ (53 + e) := by
  obtain ⟨e, he, hulp⟩ : ∃ e, e ≤ 2046 ∧ ulp rank = 2 ^ e :=
    ⟨rank / 2 ^ 52 - 1, by unfold top at htop; omega, rfl⟩
  have h1 := units_succ_le rank
  have h2 : units rank ≤ units (rank + 1) := units_strictMono.monotone (Nat.le_succ _)
  rw [hulp, ← pow_add] at h1
  exact ⟨e, he, by omega⟩

theorem places_le (hr : 0 < rank) (htop : rank < top) (h : DecimalRounds c g rank) :
    ((decimalDigits c).length : ℤ) + g ≤ 400 := by
  have hle := pow_length_decimalDigits_le (Shortest.pos_of_decimalRounds hr h)
  have hlen : 0 < (decimalDigits c).length := List.length_pos_of_ne_nil (decimalDigits_ne_nil c)
  have hhigh := h.2.1
  obtain ⟨p, hp⟩ : ∃ p, p = 1074 := ⟨1074, rfl⟩
  rw [perOne_eq_two_pow hp] at hhigh
  generalize (decimalDigits c).length = l at *
  by_contra hcon
  obtain ⟨e, he, hsum⟩ := midpoint_le htop
  have hupper : c * 10 ^ g.toNat * 2 ^ p ≤ 2 ^ (53 + e) * 10 ^ (-g).toNat := by
    have := hhigh.trans (Nat.mul_le_mul_right _ hsum)
    rw [mul_assoc 2] at this
    omega
  have hpow : 10 ^ (400 + (-g).toNat) ≤ c * 10 ^ g.toNat := by
    calc 10 ^ (400 + (-g).toNat) ≤ 10 ^ (l - 1 + g.toNat) :=
          Nat.pow_le_pow_right (by decide) (by omega)
      _ = 10 ^ (l - 1) * 10 ^ g.toNat := pow_add _ _ _
      _ ≤ c * 10 ^ g.toNat := Nat.mul_le_mul_right _ hle
  have hcancel : 10 ^ 400 * 2 ^ p ≤ 2 ^ (53 + e) := by
    apply Nat.le_of_mul_le_mul_right _ (Nat.pow_pos (n := (-g).toNat) (by decide : 0 < 10))
    calc 10 ^ 400 * 2 ^ p * 10 ^ (-g).toNat = 10 ^ (400 + (-g).toNat) * 2 ^ p := by
          rw [pow_add, mul_right_comm]
      _ ≤ c * 10 ^ g.toNat * 2 ^ p := Nat.mul_le_mul_right _ hpow
      _ ≤ 2 ^ (53 + e) * 10 ^ (-g).toNat := hupper
  have hbig : 2 ^ (53 + e) < 10 ^ 400 * 2 ^ p := by
    calc 2 ^ (53 + e) < 2 ^ (1026 + p) := Nat.pow_lt_pow_right (by decide) (by omega)
      _ = 2 ^ 1026 * 2 ^ p := pow_add _ _ _
      _ ≤ 10 ^ 400 * 2 ^ p := Nat.mul_le_mul_right _ (two_pow_le_ten_pow (by decide))
  omega

end

/-- A decimal is read as the double to which it rounds. -/
theorem toDouble_eq_of_decimalRounds {d : Decimal} {rank : ℕ} (hr : 0 < rank) (htop : rank < top)
    (h : DecimalRounds d.digits d.exponent rank) :
    d.toDouble = .signed d.negative rank htop.le := by
  have hmin := le_places hr h
  have hmax := places_le hr htop h
  have hpos := Shortest.pos_of_decimalRounds hr h
  unfold DecimalRounds at h
  unfold Decimal.toDouble
  dsimp only
  rw [if_neg (by simp; omega), if_neg (by omega)]
  split_ifs with hexp
  · rw [show (-d.exponent).toNat = 0 by omega, pow_zero] at h
    exact ofRatio_eq_of_roundsTo Nat.one_pos htop.le h
  · rw [show d.exponent.toNat = 0 by omega, pow_zero, mul_one,
      show (-d.exponent).toNat = d.exponent.natAbs by omega] at h
    exact ofRatio_eq_of_roundsTo (Nat.pow_pos (by decide)) htop.le h

end RecordShelf

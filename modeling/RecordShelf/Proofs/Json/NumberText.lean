import RecordShelf.Json.Reader
import RecordShelf.Proofs.Number.Digits

/-!
# Numbers read back

A number of a JSON value is read back from its text, whatever follows that cannot belong to a
number: an integer as the same integer, a double as the same double.
-/

namespace RecordShelf

open Double

/-- What can follow the text of a number. -/
def NumberEnd (rest : List Char) : Prop :=
  ∀ c ∈ rest.head?, c.isDigit = false ∧ c ≠ '.' ∧ c ≠ 'e' ∧ c ≠ 'E'

theorem NumberEnd.noDigitFirst {rest : List Char} (h : NumberEnd rest) : NoDigitFirst rest :=
  fun c hc => (h c hc).1

/-- A text after its sign. -/
def withSign (negative : Bool) (body : List Char) : List Char :=
  if negative then '-' :: body else body

/-- Whole digits as a numeral may start with: no zero in front of another digit. -/
structure WholePart (whole : List Char) : Prop where
  nonempty : whole ≠ []
  digits : ∀ c ∈ whole, c.isDigit = true
  noLeadingZero : whole.head? = some '0' → whole.length = 1

theorem Significant.wholePart {ds : List Char} (h : Significant ds) : WholePart ds :=
  ⟨h.nonempty, h.digits, fun h0 => absurd h0 h.head⟩

theorem wholePart_zero : WholePart ['0'] :=
  ⟨by decide, List.forall_mem_singleton.2 rfl, fun _ => rfl⟩

theorem wholePart_decimalDigits (n : ℕ) : WholePart (decimalDigits n) := by
  rcases Nat.eq_zero_or_pos n with rfl | hpos
  · exact wholePart_zero
  · exact (significant_decimalDigits hpos).wholePart

namespace Json

theorem readFraction?_point {fraction rest : List Char} (hne : fraction ≠ [])
    (hdigits : ∀ c ∈ fraction, c.isDigit = true) (hrest : NoDigitFirst rest) :
    readFraction? ('.' :: (fraction ++ rest)) = some (fraction, rest) := by
  simp [readFraction?, takeDigits_append hdigits hrest, hne]

theorem readFraction?_none {rest : List Char} (h : ∀ c ∈ rest.head?, c ≠ '.') :
    readFraction? rest = some ([], rest) := by
  cases rest with
  | nil => rfl
  | cons c rest =>
    have hc : c ≠ '.' := h c rfl
    unfold readFraction?
    split
    · rename_i heq
      exact absurd (List.cons.inj heq).1 hc
    · rfl

theorem readPower?_none {rest : List Char} (h : ∀ c ∈ rest.head?, c ≠ 'e' ∧ c ≠ 'E') :
    readPower? rest = some (none, rest) := by
  cases rest with
  | nil => rfl
  | cons c rest =>
    have hc := h c rfl
    simp [readPower?, hc.1, hc.2]

theorem readPower?_exponent {lead : ℤ} {rest : List Char} (hrest : NoDigitFirst rest) :
    readPower? ('e' :: (if lead < 0 then '-' else '+') :: (decimalDigits lead.natAbs ++ rest)) =
      some (some lead, rest) := by
  have htake : takeDigits (decimalDigits lead.natAbs ++ rest) =
      (decimalDigits lead.natAbs, rest) :=
    takeDigits_append (fun c hc => isDigit_of_mem_decimalDigits hc) hrest
  have hne : (decimalDigits lead.natAbs).isEmpty = false := by
    simp [decimalDigits_ne_nil]
  split_ifs with hneg
  · have hvalue : -|lead| = lead := by rw [abs_of_neg hneg, neg_neg]
    simp [readPower?, readExponent?, takeSign, htake, hne, hvalue]
  · have hvalue : |lead| = lead := abs_of_nonneg (not_lt.1 hneg)
    simp [readPower?, readExponent?, takeSign, htake, hne, hvalue]

theorem takeMinus_withSign {negative : Bool} {c : Char} {cs : List Char} (hc : c ≠ '-') :
    takeMinus (withSign negative (c :: cs)) = (negative, c :: cs) := by
  cases negative with
  | true => rfl
  | false =>
    unfold takeMinus withSign
    simp only [Bool.false_eq_true, if_false]
    split
    · rename_i heq
      exact absurd (List.cons.inj heq).1 hc
    · rfl

theorem readNumber?_of_parts {negative : Bool} {whole fraction after tail rest : List Char}
    {power : Option ℤ} (hwhole : WholePart whole) (htail : NoDigitFirst tail)
    (hfraction : readFraction? tail = some (fraction, after))
    (hpower : readPower? after = some (power, rest)) :
    readNumber? (withSign negative (whole ++ tail)) =
      ((if fraction.isEmpty && power.isNone then integerNumber? negative (ofDecimalDigits whole)
        else (Decimal.ofParts negative whole fraction (power.getD 0)).toDouble.finite?.map
          .float).map fun number => (number, rest)) := by
  have htake := takeDigits_append hwhole.digits htail
  have hzero : (whole.isEmpty || (whole.head? == some '0' && decide (whole.length > 1))) = false := by
    have hne := hwhole.nonempty
    have hlen := hwhole.noLeadingZero
    by_cases h0 : whole.head? = some '0'
    · simp [hne, hlen h0]
    · simp [hne, h0]
  have hsign : takeMinus (withSign negative (whole ++ tail)) = (negative, whole ++ tail) := by
    obtain ⟨c, cs, rfl⟩ := List.exists_cons_of_ne_nil hwhole.nonempty
    apply takeMinus_withSign
    rintro rfl
    exact absurd (hwhole.digits '-' List.mem_cons_self) (by decide)
  unfold readNumber?
  simp only [hsign, htake, hzero, Bool.false_eq_true, if_false, hfraction,
    Option.bind_eq_bind, Option.bind_some, hpower]
  split_ifs
  · cases integerNumber? negative (ofDecimalDigits whole) <;> rfl
  · cases (Decimal.ofParts negative whole fraction (power.getD 0)).toDouble.finite? <;> rfl

theorem decimalInt_eq_withSign (n : ℤ) :
    decimalInt n = withSign (decide (n < 0)) (decimalDigits n.natAbs) := by
  unfold decimalInt withSign
  simp only [decide_eq_true_eq]

theorem withSign_append (negative : Bool) (body rest : List Char) :
    withSign negative body ++ rest = withSign negative (body ++ rest) := by
  cases negative <;> rfl

theorem readNumber?_integer {n : ℤ} (h : fits64 n) {rest : List Char} (hrest : NumberEnd rest) :
    readNumber? (decimalInt n ++ rest) = some (.integer n h, rest) := by
  rw [decimalInt_eq_withSign, withSign_append, readNumber?_of_parts
    (wholePart_decimalDigits n.natAbs) hrest.noDigitFirst
    (readFraction?_none fun c hc => (hrest c hc).2.1)
    (readPower?_none fun c hc => (hrest c hc).2.2)]
  have hvalue : (if decide (n < 0) = true then -(n.natAbs : ℤ) else n.natAbs) = n := by
    split_ifs with hneg
    · have := of_decide_eq_true hneg
      omega
    · have := of_decide_eq_false (Bool.eq_false_iff.2 hneg)
      omega
  have hkept : ¬(decide (n < 0) = true ∧ n.natAbs = 0) := by
    rintro ⟨hneg, hzero⟩
    have := of_decide_eq_true hneg
    omega
  simp only [List.isEmpty_nil, Option.isNone_none, Bool.and_self, if_true,
    ofDecimalDigits_decimalDigits, integerNumber?]
  rw [dif_pos (by rw [hvalue]; exact ⟨h, hkept⟩)]
  simp only [hvalue, Option.map_some]

/-! ## Doubles -/

theorem readNumber?_positional {negative : Bool} {whole fraction rest : List Char}
    (hwhole : WholePart whole) (hne : fraction ≠ [])
    (hdigits : ∀ c ∈ fraction, c.isDigit = true) (hrest : NumberEnd rest) :
    readNumber? (withSign negative (whole ++ '.' :: fraction) ++ rest) =
      ((Decimal.ofParts negative whole fraction 0).toDouble.finite?.map .float).map
        fun number => (number, rest) := by
  rw [withSign_append, List.append_assoc, List.cons_append,
    readNumber?_of_parts hwhole (noDigitFirst_cons (by decide))
      (readFraction?_point hne hdigits hrest.noDigitFirst)
      (readPower?_none fun c hc => (hrest c hc).2.2)]
  simp [hne]

theorem readNumber?_scientific {negative : Bool} {whole fraction rest : List Char} {lead : ℤ}
    (hwhole : WholePart whole) (hdigits : ∀ c ∈ fraction, c.isDigit = true)
    (hrest : NumberEnd rest) :
    readNumber? (withSign negative (whole ++ (if fraction = [] then [] else '.' :: fraction) ++
        'e' :: (if lead < 0 then '-' else '+') :: decimalDigits lead.natAbs) ++ rest) =
      ((Decimal.ofParts negative whole fraction lead).toDouble.finite?.map .float).map
        fun number => (number, rest) := by
  have hpower := @readPower?_exponent lead rest hrest.noDigitFirst
  have hexp : ∀ cs, NoDigitFirst ('e' :: cs) := fun cs => noDigitFirst_cons (by decide)
  by_cases hne : fraction = []
  · subst hne
    simp only [withSign_append, if_true, List.append_nil, List.append_assoc, List.cons_append]
    rw [readNumber?_of_parts hwhole (hexp _) (readFraction?_none (by simp)) hpower]
    simp
  · simp only [withSign_append, hne, if_false, List.append_assoc, List.cons_append]
    rw [readNumber?_of_parts hwhole (noDigitFirst_cons (by decide))
      (readFraction?_point hne hdigits (hexp _)) hpower]
    simp

theorem finite?_toDouble_of_decimalRounds {d : Decimal} {x : FiniteDouble} (hr : 0 < x.rank)
    (hsign : d.negative = x.negative) (h : DecimalRounds d.digits d.exponent x.rank) :
    d.toDouble.finite? = some x := by
  rw [toDouble_eq_of_decimalRounds hr x.finite h, hsign]
  simp [finite?, x.finite]

theorem isDigit_of_mem_replicate_zero {n : ℕ} {c : Char} (hc : c ∈ List.replicate n '0') :
    c.isDigit = true := by
  rw [List.eq_of_mem_replicate hc]
  decide

/-- Positional digits are a whole part, a point and a fraction of the same value. -/
theorem positional_eq {ds : List Char} {lead : ℤ} (hds : Significant ds) :
    ∃ (whole fraction : List Char) (z : ℕ),
      FloatLayout.positional ds lead = whole ++ '.' :: fraction ∧ WholePart whole ∧
      fraction ≠ [] ∧ (∀ c ∈ fraction, c.isDigit = true) ∧
      ofDecimalDigits (whole ++ fraction) = ofDecimalDigits ds * 10 ^ z ∧
      -(fraction.length : ℤ) + z = lead + 1 - ds.length := by
  have hlen := List.length_pos_of_ne_nil hds.nonempty
  unfold FloatLayout.positional
  split_ifs with hneg
  · refine ⟨['0'], List.replicate (lead.natAbs - 1) '0' ++ ds, 0, rfl,
      wholePart_zero, by simp [hds.nonempty], ?_, ?_, ?_⟩
    · intro c hc
      exact (List.mem_append.1 hc).elim isDigit_of_mem_replicate_zero (hds.digits c)
    · have hzeros : ['0'] ++ List.replicate (lead.natAbs - 1) '0' =
          List.replicate (lead.natAbs - 1 + 1) '0' := rfl
      rw [← List.append_assoc, hzeros, ofDecimalDigits_zeros_append, Nat.pow_zero, mul_one]
    · rw [List.length_append, List.length_replicate]
      omega
  · dsimp only
    split_ifs with hwhole
    · refine ⟨ds ++ List.replicate (lead.toNat + 1 - ds.length) '0', ['0'],
        lead.toNat + 1 - ds.length + 1, rfl,
        (hds.append fun _ => isDigit_of_mem_replicate_zero).wholePart, by decide,
        wholePart_zero.digits, ?_, ?_⟩
      · rw [List.append_assoc, ← List.replicate_one, List.replicate_append_replicate,
          ofDecimalDigits_append_zeros]
      · simp only [List.length_singleton]
        omega
    · refine ⟨ds.take (lead.toNat + 1), ds.drop (lead.toNat + 1), 0, rfl,
        (hds.take (Nat.succ_pos _)).wholePart, ?_, fun c hc => hds.digits c (List.mem_of_mem_drop hc),
        ?_, ?_⟩
      · simpa using hwhole
      · rw [List.take_append_drop, Nat.pow_zero, mul_one]
      · rw [List.length_drop]
        omega

/-- Scientific digits are one digit, the others after a point, and the exponent. -/
theorem scientific_eq {ds : List Char} {lead : ℤ} (hds : Significant ds) :
    ∃ (whole fraction : List Char),
      FloatLayout.scientific ds lead = whole ++ (if fraction = [] then [] else '.' :: fraction) ++
        'e' :: (if lead < 0 then '-' else '+') :: decimalDigits lead.natAbs ∧
      WholePart whole ∧ (∀ c ∈ fraction, c.isDigit = true) ∧ whole ++ fraction = ds ∧
      whole.length = 1 := by
  cases ds with
  | nil => exact absurd rfl hds.nonempty
  | cons d rest =>
    refine ⟨[d], rest, ?_, (hds.take (k := 1) Nat.one_pos).wholePart,
      fun c hc => hds.digits c (List.mem_cons_of_mem _ hc), rfl, rfl⟩
    cases rest <;> rfl

theorem readNumber?_float (layout : FloatLayout) (x : FiniteDouble) {rest : List Char}
    (hrest : NumberEnd rest) :
    readNumber? (layout.write x ++ rest) = some (.float x, rest) := by
  have hwrite : layout.write x = withSign x.negative (layout.write { x with negative := false }) := by
    unfold FloatLayout.write withSign
    rfl
  rw [hwrite]
  unfold FloatLayout.write
  dsimp only
  simp only [Bool.false_eq_true, if_false]
  split_ifs with hzero hrange
  · have hparts : ['0', '.', '0'] = ['0'] ++ '.' :: ['0'] := rfl
    rw [hparts, readNumber?_positional wholePart_zero (by decide) wholePart_zero.digits hrest]
    have hx : x = ⟨x.negative, 0, by decide⟩ := by
      cases x
      simp_all
    rw [hx]
    cases x.negative <;> rfl
  · obtain ⟨hds, hround⟩ := Shortest.digits_rounds (Nat.pos_of_ne_zero hzero) x.finite
    obtain ⟨whole, fraction, z, htext, hwhole, hne, hdigits, hvalue, hexp⟩ := positional_eq hds
    rw [htext, readNumber?_positional hwhole hne hdigits hrest,
      finite?_toDouble_of_decimalRounds (x := x) (Nat.pos_of_ne_zero hzero) rfl]
    · rfl
    · unfold Decimal.ofParts
      rw [hvalue, decimalRounds_mul_pow, zero_sub, hexp]
      exact hround
  · obtain ⟨hds, hround⟩ := Shortest.digits_rounds (Nat.pos_of_ne_zero hzero) x.finite
    obtain ⟨whole, fraction, htext, hwhole, hdigits, happend, hone⟩ := scientific_eq hds
    rw [htext, readNumber?_scientific hwhole hdigits hrest,
      finite?_toDouble_of_decimalRounds (x := x) (Nat.pos_of_ne_zero hzero) rfl]
    · rfl
    · unfold Decimal.ofParts
      have hlen := congrArg List.length happend
      rw [List.length_append, hone] at hlen
      dsimp only
      rw [happend]
      rwa [show (Shortest.digits x.rank).2 - (fraction.length : ℤ) =
        (Shortest.digits x.rank).2 + 1 - (Shortest.digits x.rank).1.length by omega]

theorem readNumber?_write (n : JsonNumber) {rest : List Char} (hrest : NumberEnd rest) :
    readNumber? (n.write ++ rest) = some (n, rest) := by
  cases n with
  | integer n h => exact readNumber?_integer h hrest
  | float x => exact readNumber?_float _ x hrest

end Json

end RecordShelf

import Mathlib.Data.List.TakeWhile
import RecordShelf.Proofs.Number.Digits
import RecordShelf.Proofs.Time.DayCount
import RecordShelf.Time.Reader

/-!
# Written moments

A moment that was read from a text is read back from the text it is written as. Offsets are whole
minutes, so that the seconds of a minute are those of the text and only the last one leaps. The main
statement is `readRelaxed?_write`.
-/

namespace RecordShelf

-- The power of the core library, as the readers use it.
attribute [local instance (2000)] instPowNat

theorem code_of_isDigit {c : Char} (h : c.isDigit = true) : 48 ≤ c.toNat ∧ c.toNat ≤ 57 := by
  simp only [Char.isDigit, Bool.and_eq_true, decide_eq_true_eq, ge_iff_le,
    UInt32.le_iff_toNat_le] at h
  exact h

theorem isWhite_of_isDigit {c : Char} (h : c.isDigit = true) : Text.isWhite c = false := by
  have hcode := code_of_isDigit h
  simp only [Text.isWhite, Bool.or_eq_false_iff, Bool.and_eq_false_iff, decide_eq_false_iff_not,
    beq_eq_false_iff_ne]
  omega

theorem trimStart_eq {cs : List Char} (h : ∀ c ∈ cs.head?, Text.isWhite c = false) :
    Text.trimStart cs = cs := by
  cases cs with
  | nil => rfl
  | cons c cs =>
    have hc : ¬Text.isWhite c = true := by
      rw [h c rfl]
      exact Bool.false_ne_true
    exact List.dropWhile_cons_of_neg hc

/-- Digits have a value below the power of ten of as many places. -/
theorem ofDecimalDigits_lt {ds : List Char} (h : ∀ c ∈ ds, c.isDigit = true) :
    ofDecimalDigits ds < 10 ^ ds.length := by
  induction ds using List.reverseRecOn with
  | nil => exact Nat.one_pos
  | append_singleton ds c ih =>
    have hds := ih fun d hd => h d (List.mem_append_left _ hd)
    have hc := code_of_isDigit (h c (List.mem_append_right _ (List.mem_singleton_self c)))
    have hvalue : ofDecimalDigits (ds ++ [c]) = 10 * ofDecimalDigits ds + (c.toNat - 48) := by
      rw [ofDecimalDigits, Nat.ofDigitChars_append]
      rfl
    rw [hvalue, List.length_append, List.length_singleton, Nat.pow_succ]
    omega

namespace Timestamp

/-- A moment that can be written: its year is in range, and only the last second of a minute
leaps. -/
structure Writable (t : Timestamp) : Prop where
  inRange : t.InRange
  nano : t.nano < 2 * billion
  leap : billion ≤ t.nano → t.second % 60 = 59

/-! ## What is read can be written -/

theorem offset_mod {between : List Char → Option (List Char)} {cs rest : List Char} {n : ℤ}
    (h : offset between cs = some (n, rest)) : n % 60 = 0 := by
  unfold offset at h
  split at h
  · cases h
    rfl
  · cases h
    rfl
  · obtain ⟨⟨sign, cs₁⟩, -, h⟩ := Option.bind_eq_some_iff.1 h
    obtain ⟨⟨hours, cs₂⟩, -, h⟩ := Option.bind_eq_some_iff.1 h
    obtain ⟨cs₃, -, h⟩ := Option.bind_eq_some_iff.1 h
    obtain ⟨⟨minutes, cs₄⟩, -, h⟩ := Option.bind_eq_some_iff.1 h
    dsimp only at h
    split_ifs at h
    cases h
    have hminutes : sign * ((hours * 3600 + minutes * 60 : ℕ) : ℤ) =
        60 * (sign * (hours * 60 + minutes : ℕ)) := by
      push_cast
      ring
    rw [hminutes]
    exact Int.mul_emod_right 60 _

theorem fraction_lt {cs rest : List Char} {n : ℕ} (h : fraction cs = some (n, rest)) :
    n < billion := by
  unfold fraction at h
  split at h
  · rename_i text
    dsimp only at h
    split_ifs at h
    cases h
    generalize hds : (text.take 9).takeWhile Char.isDigit = ds
    have hlength : ds.length ≤ 9 := by
      rw [← hds]
      exact (List.takeWhile_prefix _).length_le.trans (List.length_take_le _ _)
    have hlt : ofDecimalDigits ds < 10 ^ ds.length := by
      apply ofDecimalDigits_lt
      rw [← hds]
      exact fun c hc => List.mem_takeWhile_imp hc
    calc ofDecimalDigits ds * 10 ^ (9 - ds.length)
        < 10 ^ ds.length * 10 ^ (9 - ds.length) :=
          Nat.mul_lt_mul_of_pos_right hlt (Nat.pow_pos (by omega))
      _ = 10 ^ 9 := by rw [← Nat.pow_add, Nat.add_sub_cancel' hlength]
  · cases h
    decide

theorem writable_of_ofParts? {d : Date} {c : Clock} {offset : ℤ} {t : Timestamp}
    (h : ofParts? d c offset = some t) (hnano : c.nano < billion) (hoffset : offset % 60 = 0) :
    t.Writable := by
  unfold ofParts? at h
  dsimp only at h
  split_ifs at h with hvalid
  cases h
  obtain ⟨-, ⟨hhour, hminute, hsecond⟩, hrange⟩ := hvalid
  by_cases hleap : c.second = 60
  · refine ⟨hrange, ?_, fun _ => ?_⟩
    · simp only [ofParts, hleap, if_true]
      omega
    · simp only [ofParts, hleap, if_true]
      omega
  · refine ⟨hrange, ?_, fun hlate => ?_⟩
    · simp only [ofParts, hleap, if_false]
      omega
    · simp only [ofParts, hleap, if_false] at hlate
      omega

theorem nano_strictClock {cs rest : List Char} {c : Clock} (h : strictClock cs = some (c, rest)) :
    c.nano < billion := by
  obtain ⟨⟨hour, cs₁⟩, -, h⟩ := Option.bind_eq_some_iff.1 h
  obtain ⟨cs₂, -, h⟩ := Option.bind_eq_some_iff.1 h
  obtain ⟨⟨minute, cs₃⟩, -, h⟩ := Option.bind_eq_some_iff.1 h
  obtain ⟨cs₄, -, h⟩ := Option.bind_eq_some_iff.1 h
  obtain ⟨⟨second, cs₅⟩, -, h⟩ := Option.bind_eq_some_iff.1 h
  obtain ⟨⟨nano, cs₆⟩, hfraction, h⟩ := Option.bind_eq_some_iff.1 h
  cases h
  exact fraction_lt hfraction

theorem nano_looseClock {pass : List Char → List Char} {cs rest : List Char} {c : Clock}
    (h : looseClock pass cs = some (c, rest)) : c.nano = 0 := by
  obtain ⟨⟨hour, cs₁⟩, -, h⟩ := Option.bind_eq_some_iff.1 h
  obtain ⟨cs₂, -, h⟩ := Option.bind_eq_some_iff.1 h
  obtain ⟨⟨minute, cs₃⟩, -, h⟩ := Option.bind_eq_some_iff.1 h
  obtain ⟨cs₄, -, h⟩ := Option.bind_eq_some_iff.1 h
  obtain ⟨⟨second, cs₅⟩, -, h⟩ := Option.bind_eq_some_iff.1 h
  cases h
  rfl

theorem writable_of_read? {text : String} {t : Timestamp} (h : read? text = some t) :
    t.Writable := by
  rcases Option.or_eq_some_iff.1 h with h | ⟨-, h⟩
  · obtain ⟨⟨d, cs₁⟩, -, h⟩ := Option.bind_eq_some_iff.1 h
    obtain ⟨cs₂, -, h⟩ := Option.bind_eq_some_iff.1 h
    obtain ⟨⟨c, cs₃⟩, hclock, h⟩ := Option.bind_eq_some_iff.1 h
    obtain ⟨⟨n, cs₄⟩, hoffset, h⟩ := Option.bind_eq_some_iff.1 h
    dsimp only at h
    split_ifs at h
    exact writable_of_ofParts? h (nano_strictClock hclock) (offset_mod hoffset)
  · obtain ⟨⟨d, cs₁⟩, -, h⟩ := Option.bind_eq_some_iff.1 h
    obtain ⟨⟨c, cs₂⟩, hclock, h⟩ := Option.bind_eq_some_iff.1 h
    dsimp only at h
    split_ifs at h
    have hnano : c.nano < billion := by
      rw [nano_looseClock hclock]
      decide
    exact writable_of_ofParts? h hnano rfl

/-! ## Padded numbers -/

theorem isDigit_of_mem_padded {places n : ℕ} : ∀ c ∈ padded places n, c.isDigit = true := by
  intro c hc
  rcases List.mem_append.1 hc with hc | hc
  · rw [List.eq_of_mem_replicate hc]
    rfl
  · exact isDigit_of_mem_decimalDigits hc

@[simp] theorem ofDecimalDigits_padded (places n : ℕ) : ofDecimalDigits (padded places n) = n := by
  rw [padded, ofDecimalDigits_zeros_append, ofDecimalDigits_decimalDigits]

theorem length_padded {places n : ℕ} (hplaces : 0 < places) (h : n < 10 ^ places) :
    (padded places n).length = places := by
  have hlength : (decimalDigits n).length ≤ places := (Nat.length_toDigits_le_iff (by decide) hplaces).2 h
  rw [padded, List.length_append, List.length_replicate]
  omega

theorem padded_ne_nil (places n : ℕ) : padded places n ≠ [] :=
  List.append_ne_nil_of_right_ne_nil _ (decimalDigits_ne_nil n)

theorem trimStart_padded (places n : ℕ) (rest : List Char) :
    Text.trimStart (padded places n ++ rest) = padded places n ++ rest := by
  apply trimStart_eq
  intro c hc
  rw [List.head?_append_of_ne_nil _ (padded_ne_nil places n)] at hc
  exact isWhite_of_isDigit (isDigit_of_mem_padded c (List.mem_of_mem_head? hc))

/-- Digits end where as many stand as are looked at, or where another character stands. -/
theorem takeWhile_take_append {ds rest : List Char} {most : ℕ}
    (hds : ∀ c ∈ ds, c.isDigit = true) (hmost : ds.length ≤ most)
    (hend : ds.length = most ∨ NoDigitFirst rest) :
    ((ds ++ rest).take most).takeWhile Char.isDigit = ds := by
  rw [List.take_append, List.take_of_length_le hmost, List.takeWhile_append_of_pos hds]
  rcases hend with hlength | hrest
  · rw [hlength, Nat.sub_self, List.take_zero, List.takeWhile_nil, List.append_nil]
  · have hfirst : NoDigitFirst (rest.take (most - ds.length)) := by
      intro c hc
      cases rest with
      | nil => exact hrest c (by rwa [List.take_nil] at hc)
      | cons d rest =>
        apply hrest c
        cases hn : most - ds.length with
        | zero => exact absurd hc (by rw [hn, List.take_zero]; simp)
        | succ n => rwa [hn, List.take_succ_cons] at hc
    rw [hfirst.takeWhile_eq, List.append_nil]

theorem number_append {ds rest : List Char} {least most : ℕ} (hds : ∀ c ∈ ds, c.isDigit = true)
    (hleast : least ≤ ds.length) (hmost : ds.length ≤ most)
    (hend : ds.length = most ∨ NoDigitFirst rest) :
    number least most (ds ++ rest) = some (ofDecimalDigits ds, rest) := by
  rw [number, takeWhile_take_append hds hmost hend, if_neg (by omega), List.drop_left]

theorem mark_cons (c : Char) (rest : List Char) : mark c (c :: rest) = some rest := if_pos rfl

theorem field_padded {n : ℕ} (h : n < 100) (rest : List Char) :
    field (padded 2 n ++ rest) = some (n, rest) := by
  have hlength : (padded 2 n).length = 2 := length_padded (by decide) h
  rw [field, trimStart_padded, number_append isDigit_of_mem_padded (by omega) (by omega)
    (.inl hlength), ofDecimalDigits_padded]

/-! ## The parts of a written moment -/

/-- A year without a sign has at most four digits. -/
theorem year_of_digit {c : Char} (hc : c.isDigit = true) (cs : List Char) :
    year (c :: cs) = (number 1 4 (c :: cs)).map fun (n, rest) => ((n : ℤ), rest) := by
  have htrim : Text.trimStart (c :: cs) = c :: cs := by
    apply trimStart_eq
    intro d hd
    obtain rfl := Option.some.inj hd
    exact isWhite_of_isDigit hc
  rw [year, htrim]
  split
  · rename_i heq
    obtain rfl := (List.cons.inj heq).1
    exact absurd hc (by decide)
  · rename_i heq
    obtain rfl := (List.cons.inj heq).1
    exact absurd hc (by decide)
  · rfl

theorem year_minus (cs : List Char) :
    year ('-' :: cs) = (number 1 cs.length cs).map fun (n, rest) => (-(n : ℤ), rest) := rfl

theorem year_plus (cs : List Char) :
    year ('+' :: cs) = (number 1 cs.length cs).map fun (n, rest) => ((n : ℤ), rest) := rfl

theorem number_signed (n : ℕ) {rest : List Char} (hrest : NoDigitFirst rest) :
    number 1 (padded 4 n ++ rest).length (padded 4 n ++ rest) = some (n, rest) := by
  have hne : 0 < (padded 4 n).length := List.length_pos_iff.2 (padded_ne_nil 4 n)
  rw [number_append isDigit_of_mem_padded hne (by rw [List.length_append]; omega) (.inr hrest),
    ofDecimalDigits_padded]

theorem year_yearText (y : ℤ) {rest : List Char} (hrest : NoDigitFirst rest) :
    year (yearText y ++ rest) = some (y, rest) := by
  unfold yearText
  by_cases hplain : 0 ≤ y ∧ y ≤ 9999
  · have hlength : (padded 4 y.natAbs).length = 4 := length_padded (by decide) (by omega)
    have hread : number 1 4 (padded 4 y.natAbs ++ rest) =
        some (ofDecimalDigits (padded 4 y.natAbs), rest) :=
      number_append isDigit_of_mem_padded (by omega) hlength.le (.inl hlength)
    obtain ⟨c, cs, hcs⟩ := List.exists_cons_of_ne_nil (padded_ne_nil 4 y.natAbs)
    have hc : c.isDigit = true :=
      isDigit_of_mem_padded c (by rw [hcs]; exact List.mem_cons_self)
    rw [if_pos hplain, hcs, List.cons_append, year_of_digit hc, ← List.cons_append, ← hcs, hread,
      ofDecimalDigits_padded, Option.map_some]
    exact congrArg (fun n => some (n, rest)) (Int.natAbs_of_nonneg hplain.1)
  · rw [if_neg hplain]
    by_cases hneg : y < 0
    · rw [if_pos hneg, List.cons_append, year_minus, number_signed _ hrest, Option.map_some]
      have hy : -(y.natAbs : ℤ) = y := by omega
      exact congrArg (fun n => some (n, rest)) hy
    · rw [if_neg hneg, List.cons_append, year_plus, number_signed _ hrest, Option.map_some]
      exact congrArg (fun n => some (n, rest)) (Int.natAbs_of_nonneg (not_lt.1 hneg))

theorem looseDate_append {d : Date} (hmonth : d.month < 100) (hday : d.day < 100)
    (rest : List Char) : looseDate Text.trimStart
      (yearText d.year ++ '-' :: padded 2 d.month ++ '-' :: padded 2 d.day ++ rest) =
        some (d, rest) := by
  have hend (cs : List Char) : NoDigitFirst ('-' :: cs) := noDigitFirst_cons rfl
  have hmark (cs : List Char) : mark '-' (Text.trimStart ('-' :: cs)) = some cs := mark_cons '-' cs
  simp only [List.append_assoc, List.cons_append]
  rw [looseDate, year_yearText d.year (hend _)]
  simp only [Option.bind_eq_bind, Option.bind_some, hmark, field_padded hmonth, field_padded hday]
  rfl

theorem looseClock_append {hour minute second : ℕ} (hhour : hour < 100) (hminute : minute < 100)
    (hsecond : second < 100) (rest : List Char) : looseClock Text.trimStart
      (padded 2 hour ++ ':' :: padded 2 minute ++ ':' :: padded 2 second ++ rest) =
        some (⟨hour, minute, second, 0⟩, rest) := by
  have hmark (cs : List Char) : mark ':' (Text.trimStart (':' :: cs)) = some cs := mark_cons ':' cs
  simp only [List.append_assoc, List.cons_append]
  rw [looseClock, field_padded hhour]
  simp only [Option.bind_eq_bind, Option.bind_some, hmark, field_padded hminute,
    field_padded hsecond]
  rfl

/-- A fraction of whole groups of three digits. -/
theorem fraction_padded {places n : ℕ} (hplaces : 0 < places) (hmost : places ≤ 9)
    (h : n < 10 ^ places) {rest : List Char} (hrest : NoDigitFirst rest) :
    fraction ('.' :: (padded places n ++ rest)) = some (n * 10 ^ (9 - places), rest) := by
  have hlength := length_padded hplaces h
  have hdigits : ((padded places n ++ rest).take 9).takeWhile Char.isDigit = padded places n :=
    takeWhile_take_append isDigit_of_mem_padded (by omega) (.inr hrest)
  have hne : (padded places n).isEmpty = false := by
    rw [List.isEmpty_eq_false_iff]
    exact padded_ne_nil places n
  simp only [fraction, hdigits, hne, ofDecimalDigits_padded, hlength, List.drop_left',
    hrest.dropWhile_eq]
  rfl

theorem fraction_fractionText {nano : ℕ} (h : nano < billion) :
    fraction (fractionText nano ++ ['Z']) = some (nano, ['Z']) := by
  have hend : NoDigitFirst ['Z'] := noDigitFirst_cons rfl
  have hbillion : billion = 10 ^ 9 := rfl
  unfold fractionText
  by_cases hzero : nano = 0
  · rw [if_pos hzero, hzero]
    rfl
  · rw [if_neg hzero]
    by_cases hmillis : nano % 1000000 = 0
    · rw [if_pos hmillis, List.cons_append, fraction_padded (by decide) (by decide) _ hend]
      · congr 2
        omega
      · omega
    · rw [if_neg hmillis]
      by_cases hmicros : nano % 1000 = 0
      · rw [if_pos hmicros, List.cons_append, fraction_padded (by decide) (by decide) _ hend]
        · congr 2
          omega
        · omega
      · rw [if_neg hmicros, List.cons_append, fraction_padded (by decide) (by decide) _ hend]
        · congr 2
          omega
        · omega

/-! ## Whole moments -/

/-- The date and the time of day that a moment is written with make up the moment. -/
theorem ofParts_of_writable {t : Timestamp} (h : t.Writable) {s : ℕ}
    (hs : (s : ℤ) = t.second % 86400) :
    ofParts (Date.ofDay (t.second / 86400))
      ⟨s / 3600, s / 60 % 60, s % 60 + t.nano / billion, t.nano % billion⟩ 0 = t := by
  obtain ⟨second, nano⟩ := t
  obtain ⟨-, hnano, hlast⟩ := h
  have hbillion : billion = 1000000000 := rfl
  simp only [hbillion] at hs hnano hlast ⊢
  by_cases hleap : 1000000000 ≤ nano
  · have hsecond := hlast hleap
    have hminute : s % 60 + nano / 1000000000 = 60 := by omega
    simp only [ofParts, Date.toDay_ofDay, Timestamp.mk.injEq, hminute, hbillion, if_true]
    omega
  · have hminute : ¬s % 60 + nano / 1000000000 = 60 := by omega
    simp only [ofParts, Date.toDay_ofDay, Timestamp.mk.injEq, hminute, hbillion, if_false]
    omega

theorem valid_clock {s nano : ℕ} (hs : s < 86400) (hnano : nano < 2 * billion) :
    Clock.IsValid ⟨s / 3600, s / 60 % 60, s % 60 + nano / billion, nano % billion⟩ := by
  have hbillion : billion = 1000000000 := rfl
  simp only [Clock.IsValid, hbillion] at hnano ⊢
  omega

theorem day_lt {d : Date} (h : d.IsValid) : d.day < 100 := by
  obtain ⟨-, -, -, -, -, hday⟩ := h
  have hdays : Date.daysInMonth d.year d.month ≤ 31 := by
    unfold Date.daysInMonth
    split_ifs <;> omega
  omega

/-- A moment that can be written is read back from its text. -/
theorem readRelaxed?_write {t : Timestamp} (h : t.Writable) :
    readRelaxed? t.write.toList = some t := by
  obtain ⟨s, hs⟩ : ∃ s : ℕ, t.second % 86400 = s := ⟨(t.second % 86400).toNat, by omega⟩
  have hparts := ofParts_of_writable h hs.symm
  have hclock : Clock.IsValid
      ⟨s / 3600, s / 60 % 60, s % 60 + t.nano / billion, t.nano % billion⟩ :=
    valid_clock (by omega) h.nano
  have hdate : (Date.ofDay (t.second / 86400)).IsValid := h.inRange
  rw [write, String.toList_ofList, hs, Int.toNat_natCast]
  generalize Date.ofDay (t.second / 86400) = d at *
  have hmonth : d.month < 100 := by
    obtain ⟨-, -, -, hmonth, -⟩ := hdate
    omega
  have hhour : s / 3600 < 100 := lt_of_le_of_lt hclock.1 (by omega)
  have hminute : s / 60 % 60 < 100 := lt_of_le_of_lt hclock.2.1 (by omega)
  have hsecond : s % 60 + t.nano / billion < 100 := lt_of_le_of_lt hclock.2.2 (by omega)
  have hfraction := fraction_fractionText (Nat.mod_lt t.nano (show 0 < billion by decide))
  -- The text falls into the date, a letter, the time of day and the fraction with the offset.
  have htext : ∀ hour minute second fraction : List Char,
      yearText d.year ++ '-' :: padded 2 d.month ++ '-' :: padded 2 d.day ++ 'T' :: hour ++
        ':' :: minute ++ ':' :: second ++ fraction ++ ['Z'] =
      (yearText d.year ++ '-' :: padded 2 d.month ++ '-' :: padded 2 d.day) ++
        'T' :: (hour ++ ':' :: minute ++ ':' :: second ++ (fraction ++ ['Z'])) := by
    intro hour minute second fraction
    simp only [List.append_assoc, List.cons_append]
  have hseparator (cs : List Char) : separator ('T' :: cs) = some cs := rfl
  rw [htext, readRelaxed?, looseDate_append hmonth (day_lt hdate)]
  simp only [Option.bind_eq_bind, Option.bind_some, hseparator]
  rw [looseClock_append hhour hminute hsecond]
  simp only [Option.bind_some, hfraction]
  have hoffset : looseOffset (Text.trimStart ['Z']) = some (0, []) := rfl
  simp only [hoffset, Option.bind_some]
  have hend : (Text.trimStart []).isEmpty = true := rfl
  rw [if_pos hend, ofParts?]
  simp only [hparts]
  rw [if_pos ⟨hdate, hclock, h.inRange⟩]

end Timestamp

end RecordShelf

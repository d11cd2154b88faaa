import Mathlib.Algebra.Group.Basic
import Mathlib.Algebra.Group.Int.Defs
import RecordShelf.Time.Date

/-!
# Counting days

The date of a day is counted back to that day. In a cycle of four hundred years every century but
the last has 36524 days, and four years have 1461 of them unless a century ends. The main statement
is `toDay_ofDay`.
-/

namespace RecordShelf.Date

/-- Days from the start of a cycle to the start of one of its years. -/
def yearStart (year : ℕ) : ℕ := 365 * year + year / 4 - year / 100

/-- The year of a day in its cycle. -/
def yearOf (day : ℕ) : ℕ := (day - day / 1460 + day / 36524 - day / 146096) / 365

/-- A day of a cycle lies in a century and in a year, with so many spans of four years before it. -/
structure Lies (day century spans year : ℕ) : Prop where
  notBefore : 36524 * century ≤ day
  notAfter : day ≤ 36524 * century + 36524
  last : century ≤ 3
  spansBegun : 1460 * spans ≤ day
  spansGone : day < 1460 * spans + 1460
  yearBegun : 365 * year + spans ≤ day + century
  yearGone : day + century < 365 * year + spans + 365

theorem lies {day : ℕ} (h : day < 146097) :
    Lies day (day / 36524 - day / 146096) (day / 1460) (yearOf day) := by
  have hspans : day / 1460 ≤ day := Nat.div_le_self day 1460
  have hcycles : day / 146096 ≤ day / 36524 := Nat.div_le_div_left (by omega) (by omega)
  have hyear : 365 * yearOf day ≤ day - day / 1460 + day / 36524 - day / 146096 ∧
      day - day / 1460 + day / 36524 - day / 146096 < 365 * yearOf day + 365 := by
    unfold yearOf
    generalize day - day / 1460 + day / 36524 - day / 146096 = days
    omega
  refine ⟨by omega, by omega, by omega, by omega, by omega, ?_, ?_⟩
  · omega
  · omega

section
variable {day century spans year : ℕ}

theorem Lies.century_eq (h : Lies day century spans year) : year / 100 = century := by
  obtain ⟨hnotBefore, hnotAfter, hlast, hbegun, hgone, hyearBegun, hyearGone⟩ := h
  have hleast : 25 * century ≤ spans := by omega
  have hmost : spans ≤ 25 * century + 25 := by omega
  have hfirst : 100 * century ≤ year := by omega
  have hend : year < 100 * century + 100 := by omega
  omega

/-- The year has begun, and the day is one of its at most 366 days. -/
theorem Lies.yearStart_le (h : Lies day century spans year) :
    yearStart year ≤ day ∧ day ≤ yearStart year + 365 := by
  have hcentury := h.century_eq
  obtain ⟨hnotBefore, hnotAfter, hlast, hbegun, hgone, hyearBegun, hyearGone⟩ := h
  have hleast : 25 * century ≤ spans := by omega
  have hmost : spans ≤ 25 * century + 25 := by omega
  have hspans : year / 4 ≤ spans ∧ spans ≤ year / 4 + 1 := by omega
  unfold yearStart
  rw [hcentury]
  omega

theorem Lies.year_lt (h : Lies day century spans year) : year < 400 := by
  have hcentury := h.century_eq
  have hlast := h.last
  omega

end

/-- The calendar's month for a month counted from March. -/
def civilMonth (month : ℕ) : ℕ := if month < 10 then month + 3 else month - 9

/-- The calendar's date for a year that starts in March and a month counted from there. -/
def ofMarch (year : ℤ) (month day : ℕ) : Date :=
  ⟨year + (if civilMonth month ≤ 2 then 1 else 0), civilMonth month, day + 1⟩

theorem toDay_ofMarch (year : ℤ) {month : ℕ} (h : month ≤ 11) (day : ℕ) :
    (ofMarch year month day).toDay =
      365 * year + year / 4 - year / 100 + year / 400 + ((153 * month + 2) / 5 + day : ℕ) - epoch := by
  by_cases hlate : month < 10
  · have hcivil : civilMonth month = month + 3 := if_pos hlate
    have hmarch : ¬month + 3 ≤ 2 := by omega
    simp only [ofMarch, toDay, hcivil, hmarch, if_false, Nat.add_sub_cancel]
    omega
  · have hcivil : civilMonth month = month - 9 := if_neg hlate
    have hmarch : month - 9 ≤ 2 := by omega
    have hmonth : month - 9 + 9 = month := by omega
    simp only [ofMarch, toDay, hcivil, hmarch, hmonth, if_true, add_sub_cancel_right]
    omega

/-- A day of a year that starts in March lies in one of twelve months that has begun. -/
theorem month_of_rest {rest : ℕ} (h : rest ≤ 365) :
    (5 * rest + 2) / 153 ≤ 11 ∧ (153 * ((5 * rest + 2) / 153) + 2) / 5 ≤ rest := by
  omega

theorem toDay_ofCycleDay (cycle : ℤ) {day : ℕ} (h : day < 146097) :
    (ofCycleDay cycle day).toDay = 146097 * cycle + day - epoch := by
  have hlies := lies h
  have hlt := hlies.year_lt
  obtain ⟨hstart, hend⟩ := hlies.yearStart_le
  obtain ⟨rest, hday⟩ := Nat.exists_eq_add_of_le hstart
  obtain ⟨hmonth, hbegun⟩ := month_of_rest (show rest ≤ 365 by omega)
  have hrest : day - (365 * yearOf day + yearOf day / 4 - yearOf day / 100) = rest := by
    unfold yearStart at hday
    omega
  have hdate : ofCycleDay cycle day = ofMarch (400 * cycle + yearOf day) ((5 * rest + 2) / 153)
      (rest - (153 * ((5 * rest + 2) / 153) + 2) / 5) := by
    rw [← hrest]
    rfl
  have hfours : (400 * cycle + yearOf day) / 4 = 100 * cycle + (yearOf day / 4 : ℕ) := by omega
  have hcenturies : (400 * cycle + yearOf day) / 100 = 4 * cycle + (yearOf day / 100 : ℕ) := by omega
  have hcycles : (400 * cycle + yearOf day) / 400 = cycle := by omega
  rw [hdate, toDay_ofMarch _ hmonth, Nat.add_sub_cancel' hbegun, hfours, hcenturies, hcycles]
  unfold yearStart at hday
  omega

/-- The date of a day is counted back to the day. -/
theorem toDay_ofDay (day : ℤ) : (ofDay day).toDay = day := by
  have hlt : ((day + epoch) % 146097).toNat < 146097 := by omega
  rw [ofDay, toDay_ofCycleDay _ hlt]
  omega

end RecordShelf.Date

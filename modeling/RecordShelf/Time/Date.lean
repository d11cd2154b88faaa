/-!
# Dates

Dates of the Gregorian calendar, also before its time, and days counted from the first of January
1970. Counting goes by years that start in March, so that a leap day is the last day of its year.
-/

namespace RecordShelf

structure Date where
  year : Int
  month : Nat
  day : Nat
  deriving DecidableEq, Repr

namespace Date

def isLeap (year : Int) : Bool := year % 4 = 0 ∧ (year % 100 ≠ 0 ∨ year % 400 = 0)

def daysInMonth (year : Int) (month : Nat) : Nat :=
  if month = 2 then if isLeap year then 29 else 28
  else if month = 4 ∨ month = 6 ∨ month = 9 ∨ month = 11 then 30
  else 31

/-- Years that a date can have. -/
def minYear : Int := -262143

def maxYear : Int := 262142

def IsValid (d : Date) : Prop :=
  minYear ≤ d.year ∧ d.year ≤ maxYear ∧ 1 ≤ d.month ∧ d.month ≤ 12 ∧ 1 ≤ d.day ∧
    d.day ≤ daysInMonth d.year d.month

instance (d : Date) : Decidable d.IsValid := inferInstanceAs (Decidable (_ ∧ _))

/-- Days from the first of March of the year 0 to the first of January 1970. -/
def epoch : Int := 719468

/-- The day's number. -/
def toDay (d : Date) : Int :=
  let year := if d.month ≤ 2 then d.year - 1 else d.year
  let month := if d.month ≤ 2 then d.month + 9 else d.month - 3
  365 * year + year / 4 - year / 100 + year / 400 + ((153 * month + 2) / 5 + d.day : Nat) - 1 - epoch

/-- The date of a day in a cycle of four hundred years. -/
def ofCycleDay (cycle : Int) (day : Nat) : Date :=
  let year := (day - day / 1460 + day / 36524 - day / 146096) / 365
  let rest := day - (365 * year + year / 4 - year / 100)
  let month := (5 * rest + 2) / 153
  let civil := if month < 10 then month + 3 else month - 9
  ⟨400 * cycle + year + (if civil ≤ 2 then 1 else 0), civil, rest - (153 * month + 2) / 5 + 1⟩

/-- The date of a day. -/
def ofDay (day : Int) : Date :=
  let n := day + epoch
  ofCycleDay (n / 146097) (n % 146097).toNat

end Date

end RecordShelf

import RecordShelf.Number.Decimal
import RecordShelf.Time.Date

/-!
# Moments

A moment is a number of seconds since the start of 1970, in universal time, with nanoseconds. In a
leap second the nanoseconds go on beyond a thousand million.
-/

namespace RecordShelf

structure Timestamp where
  second : Int
  nano : Nat
  deriving DecidableEq, Repr

namespace Timestamp

def billion : Nat := 1000000000

def ofMillis (ms : Nat) : Timestamp := ⟨ms / 1000, ms % 1000 * 1000000⟩

def before (a b : Timestamp) : Bool :=
  a.second < b.second || (a.second == b.second && a.nano < b.nano)

/-- A time of day. -/
structure Clock where
  hour : Nat
  minute : Nat
  second : Nat
  nano : Nat
  deriving DecidableEq, Repr

/-- A second of 60 is a leap second after 59. -/
def Clock.IsValid (c : Clock) : Prop := c.hour ≤ 23 ∧ c.minute ≤ 59 ∧ c.second ≤ 60

instance (c : Clock) : Decidable c.IsValid := inferInstanceAs (Decidable (_ ∧ _))

/-- The moment of a date and time of day that are `offset` seconds ahead of universal time. -/
def ofParts (d : Date) (c : Clock) (offset : Int) : Timestamp :=
  let leap := if c.second = 60 then 1 else 0
  ⟨d.toDay * 86400 + (c.hour * 3600 + c.minute * 60 + c.second - leap : Nat) - offset,
    c.nano + leap * billion⟩

/-- Moments whose date in universal time can be written. -/
def InRange (t : Timestamp) : Prop := (Date.ofDay (t.second / 86400)).IsValid

instance (t : Timestamp) : Decidable t.InRange := inferInstanceAs (Decidable (Date.IsValid _))

/-- The moment of a date and a time of day, if all exist. -/
def ofParts? (d : Date) (c : Clock) (offset : Int) : Option Timestamp :=
  let t := ofParts d c offset
  if d.IsValid ∧ c.IsValid ∧ t.InRange then some t else none

/-! ## Written moments -/

def padded (places n : Nat) : List Char :=
  let ds := decimalDigits n
  List.replicate (places - ds.length) '0' ++ ds

/-- Four digits, with a sign for years that need more or are negative. -/
def yearText (year : Int) : List Char :=
  if 0 ≤ year ∧ year ≤ 9999 then padded 4 year.natAbs
  else (if year < 0 then '-' else '+') :: padded 4 year.natAbs

/-- A fraction of a second in as many groups of three digits as it needs. -/
def fractionText (nano : Nat) : List Char :=
  if nano = 0 then []
  else if nano % 1000000 = 0 then '.' :: padded 3 (nano / 1000000)
  else if nano % 1000 = 0 then '.' :: padded 6 (nano / 1000)
  else '.' :: padded 9 nano

/-- `YYYY-MM-DDTHH:MM:SSZ` with the fraction before the `Z`. -/
def write (t : Timestamp) : String :=
  let d := Date.ofDay (t.second / 86400)
  let s := (t.second % 86400).toNat
  let leap := t.nano / billion
  String.ofList (yearText d.year ++ '-' :: padded 2 d.month ++ '-' :: padded 2 d.day ++
    'T' :: padded 2 (s / 3600) ++ ':' :: padded 2 (s / 60 % 60) ++ ':' :: padded 2 (s % 60 + leap) ++
    fractionText (t.nano % billion) ++ ['Z'])

end Timestamp

end RecordShelf

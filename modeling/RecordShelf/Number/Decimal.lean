import RecordShelf.Number.Double

/-!
# Decimal numerals

`Decimal` is a sign, an integer of digits and a power of ten. `Decimal.toDouble` rounds it to the
nearest double, and `Double.read?` reads the numerals people write in texts: optional sign, digits
with an optional point and exponent, or a name of infinity or of no number.
-/

namespace RecordShelf

-- The power of the core library, whatever else is in scope.
attribute [local instance (2000)] instPowNat

/-- The value `± digits * 10 ^ exponent`. -/
structure Decimal where
  negative : Bool
  digits : Nat
  exponent : Int
  deriving DecidableEq

def decimalDigits (n : Nat) : List Char := Nat.toDigits 10 n

def ofDecimalDigits (cs : List Char) : Nat := Nat.ofDigitChars 10 cs 0

def decimalInt (n : Int) : List Char :=
  if n < 0 then '-' :: decimalDigits n.natAbs else decimalDigits n.natAbs

namespace Decimal

/-- The nearest double. Beyond 400 places either way the answer is infinity or zero, so that no
power of ten is ever large. -/
def toDouble (d : Decimal) : Double :=
  let places := (decimalDigits d.digits).length + d.exponent
  if d.digits = 0 || places < -400 then .zero d.negative
  else if places > 400 then .infinity d.negative
  else if d.exponent ≥ 0 then .ofRatio d.negative (d.digits * 10 ^ d.exponent.toNat) 1
  else .ofRatio d.negative d.digits (10 ^ d.exponent.natAbs)

end Decimal

/-- A sign, if the text starts with one, and the rest. -/
def takeSign : List Char → Bool × List Char
  | '-' :: cs => (true, cs)
  | '+' :: cs => (false, cs)
  | cs => (false, cs)

def takeDigits (cs : List Char) : List Char × List Char :=
  (cs.takeWhile Char.isDigit, cs.dropWhile Char.isDigit)

/-- The exponent part after the letter: an optional sign and at least one digit. -/
def readExponent? (cs : List Char) : Option (Int × List Char) :=
  let (negative, cs) := takeSign cs
  let (ds, rest) := takeDigits cs
  if ds.isEmpty then none
  else
    let n : Int := ofDecimalDigits ds
    some (if negative then -n else n, rest)

/-- The value of digits before and after the point with an exponent. -/
def Decimal.ofParts (negative : Bool) (whole fraction : List Char) (exponent : Int) : Decimal :=
  ⟨negative, ofDecimalDigits (whole ++ fraction), exponent - fraction.length⟩

/-- Digits with an optional point, at least one digit in all. -/
def readMantissa? (cs : List Char) : Option (List Char × List Char × List Char) :=
  let (whole, rest) := takeDigits cs
  let (fraction, rest) :=
    match rest with
    | '.' :: rest => takeDigits rest
    | _ => ([], rest)
  if whole.isEmpty && fraction.isEmpty then none else some (whole, fraction, rest)

def readNumeral? (negative : Bool) (cs : List Char) : Option Double := do
  let (whole, fraction, rest) ← readMantissa? cs
  match rest with
  | [] => some (Decimal.ofParts negative whole fraction 0).toDouble
  | e :: rest =>
    if e = 'e' || e = 'E' then
      let (exponent, rest) ← readExponent? rest
      if rest.isEmpty then some (Decimal.ofParts negative whole fraction exponent).toDouble else none
    else none

/-- The number a whole text denotes, if it denotes one. -/
def Double.read? (cs : List Char) : Option Double :=
  let (negative, body) := takeSign cs
  let name := body.map Char.toLower
  if name = "inf".toList || name = "infinity".toList then some (.infinity negative)
  else if name = "nan".toList then some .nan
  else readNumeral? negative body

/-- A decimal integer with an optional sign. -/
def readInt? (cs : List Char) : Option Int :=
  let (negative, body) := takeSign cs
  if body.isEmpty || !body.all Char.isDigit then none
  else
    let n : Int := ofDecimalDigits body
    some (if negative then -n else n)

/-- A decimal integer of 64 signed bits. -/
def readInt64? (cs : List Char) : Option Int64 := do
  let n ← readInt? cs
  if -2 ^ (63 : Nat) ≤ n ∧ n < 2 ^ (63 : Nat) then some (.ofInt n) else none

/-- A decimal number of 64 unsigned bits; only a plus sign may precede it. -/
def readCount? (cs : List Char) : Option Nat := do
  if cs.head? = some '-' then none
  let n ← readInt? cs
  if n < 2 ^ (64 : Nat) then some n.toNat else none

end RecordShelf

import RecordShelf.Number.Decimal

/-!
# The shortest decimal of a double

`shortest` finds the least number of digits with which some decimal rounds to the given double,
and of the decimals with that many digits the nearest; a tie goes to the even digit. The decimals
that round to a double lie between the midpoints to its two neighbours, and the midpoints belong
to the double of even rank.
-/

namespace RecordShelf.Shortest

-- The power of the core library, whatever else is in scope.
attribute [local instance (2000)] instPowNat

/-- Whether `c * 10 ^ g` lies between the midpoints around the magnitude of `rank`. -/
def rounds (rank c : Nat) (g : Int) : Bool :=
  let low := Double.units (rank - 1) + Double.units rank
  let high := Double.units rank + Double.units (rank + 1)
  let value := 2 * (c * 10 ^ g.toNat * Double.perOne)
  let scale := 10 ^ (-g).toNat
  if rank % 2 = 0 then low * scale ≤ value && value ≤ high * scale
  else low * scale < value && value < high * scale

/-- The number of whole steps `10 ^ g` in the magnitude of `rank`. -/
def steps (rank : Nat) (g : Int) : Nat :=
  Double.units rank * 10 ^ (-g).toNat / (Double.perOne * 10 ^ g.toNat)

/-- Whether the magnitude is nearer to `c + 1` steps than to `c`, the even one on a tie. -/
def nearerAbove (rank c : Nat) (g : Int) : Bool :=
  let twice := 2 * Double.units rank * 10 ^ (-g).toNat
  let middle := (2 * c + 1) * 10 ^ g.toNat * Double.perOne
  twice > middle || (twice == middle && c % 2 == 1)

/-- The multiple of `10 ^ g` that rounds to the magnitude, the nearer if both neighbours do. -/
def onGrid? (rank : Nat) (g : Int) : Option Nat :=
  let c := steps rank g
  match rounds rank c g, rounds rank (c + 1) g with
  | true, true => some (if nearerAbove rank c g then c + 1 else c)
  | true, false => some c
  | false, true => some (c + 1)
  | false, false => none

/-- The exponent of the first decimal digit of a positive magnitude. -/
def leadingExponent (rank : Nat) : Int :=
  let guess : Int := ((Double.units rank).log2 - 1074 : Int) * 30103 / 100000
  ([guess + 1, guess].find? fun p => steps rank p ≥ 1).getD (guess - 1)

/-- Digits and the power of ten of the last one, trying one digit more at a time. -/
def search (rank : Nat) (lead : Int) : Nat → Nat × Int
  | 0 => (steps rank (lead - 16), lead - 16)
  | k + 1 =>
    let g := lead - (16 - k : Nat)
    match onGrid? rank g with
    | some c => (c, g)
    | none => search rank lead k

/-- The digits without trailing zeros, and the exponent of the first digit. -/
def normalize (c : Nat) (g : Int) : List Char × Int :=
  let ds := decimalDigits c
  ((ds.reverse.dropWhile (· == '0')).reverse, ds.length - 1 + g)

def digits (rank : Nat) : List Char × Int :=
  let (c, g) := search rank (leadingExponent rank) 17
  normalize c g

end RecordShelf.Shortest

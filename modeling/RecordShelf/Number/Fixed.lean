import RecordShelf.Number.Decimal

/-!
# Doubles with fixed places

A double is written with a given number of digits after the point, rounded to the nearest such
decimal, halves to the even neighbour.
-/

namespace RecordShelf

-- The power of the core library, whatever else is in scope.
attribute [local instance (2000)] instPowNat

namespace Double

/-- The double nearest to a multiple of a double. -/
def scale : Double → Nat → Double
  | .nan, _ => .nan
  | .signed negative rank _, n => .ofRatio negative (units rank * n) perOne

/-- A count of the last place with its point put in; there is always a digit before it. -/
def withPoint (places n : Nat) : List Char :=
  let ds := decimalDigits n
  let ds := List.replicate (places + 1 - ds.length) '0' ++ ds
  let whole := ds.length - places
  if places = 0 then ds else ds.take whole ++ '.' :: ds.drop whole

def fixed : Double → Nat → List Char
  | .nan, _ => "NaN".toList
  | .signed negative rank _, places =>
    let body :=
      if rank = top then "inf".toList
      else withPoint places (roundHalfEven (units rank * 10 ^ places) perOne)
    if negative then '-' :: body else body

end Double

end RecordShelf

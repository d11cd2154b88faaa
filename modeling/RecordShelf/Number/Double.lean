/-!
# Floating-point numbers of 64 bits

The magnitudes are numbered in increasing order: rank 0 is zero, rank 1 the least positive
magnitude 2 ^ -1074, and the last rank is infinity. `Double.units` gives a magnitude as a multiple
of 2 ^ -1074, so that comparing, rounding and printing are exact arithmetic on natural numbers.
A `Double` is a sign with a rank, or no number at all; `Double.position` orders them on the
integers, where the two zeros meet.
-/

namespace RecordShelf

-- The power of the core library, whatever else is in scope.
attribute [local instance (2000)] instPowNat

/-- The rank of infinity. -/
def Double.top : Nat := 2047 * 2 ^ (52 : Nat)

/-- How many of the least positive magnitude make one. -/
def Double.perOne : Nat := 2 ^ (1074 : Nat)

/-- The magnitude of a rank in multiples of 2 ^ -1074. -/
def Double.units (rank : Nat) : Nat :=
  if rank < 2 ^ (52 : Nat) then rank
  else (2 ^ (52 : Nat) + rank % 2 ^ (52 : Nat)) * 2 ^ (rank / 2 ^ (52 : Nat) - 1)

inductive Double where
  | nan
  | signed (negative : Bool) (rank : Nat) (bound : rank ≤ Double.top)
  deriving DecidableEq

/-- A double that is neither infinite nor `nan`. -/
structure FiniteDouble where
  negative : Bool
  rank : Nat
  finite : rank < Double.top
  deriving DecidableEq

/-- The quotient rounded to the nearest integer, halves to the even neighbour. -/
def roundHalfEven (num den : Nat) : Nat :=
  let q := num / den
  let r := num % den
  if 2 * r < den ∨ (2 * r = den ∧ q % 2 = 0) then q else q + 1

namespace Double

def infinity (negative : Bool) : Double := .signed negative top (Nat.le_refl _)

def zero (negative : Bool) : Double := .signed negative 0 (Nat.zero_le _)

/-- The rank nearest to the quotient, halves to the even rank; it may lie beyond infinity. -/
def nearestRank (num den : Nat) : Nat :=
  let scaled := num * perOne
  let k := (scaled / den).log2 - 52
  k * 2 ^ (52 : Nat) + roundHalfEven scaled (den * 2 ^ k)

/-- The double nearest to a quotient. -/
def ofRatio (negative : Bool) (num den : Nat) : Double :=
  .signed negative (min (nearestRank num den) top) (Nat.min_le_right _ _)

def ofInt (n : Int) : Double := ofRatio (n < 0) n.natAbs 1

/-- Where a number stands among the doubles, zero in the middle. -/
def position : Double → Option Int
  | .nan => none
  | .signed negative rank _ => some (if negative then -rank else rank)

/-- The order of two numbers; there is none with `nan`. -/
def compare? (a b : Double) : Option Ordering :=
  match a.position, b.position with
  | some i, some j => some (compare i j)
  | _, _ => none

/-- Numeric equality: the zeros are equal and `nan` equals nothing. -/
def same (a b : Double) : Bool :=
  match a.position, b.position with
  | some i, some j => i == j
  | _, _ => false

def isNan : Double → Bool
  | .nan => true
  | .signed .. => false

def finite? : Double → Option FiniteDouble
  | .nan => none
  | .signed negative rank _ =>
    if finite : rank < top then some ⟨negative, rank, finite⟩ else none

theorem perOne_eq_two_pow {p : Nat} (hp : p = 1074) : perOne = 2 ^ p := by
  rw [hp, perOne]

theorem perOne_pos : 0 < perOne := by
  obtain ⟨p, hp⟩ : ∃ p, p = 1074 := ⟨1074, rfl⟩
  rw [perOne_eq_two_pow hp]
  exact Nat.two_pow_pos p

@[simp] theorem position_zero (negative : Bool) : (zero negative).position = some 0 := by
  cases negative <;> rfl

theorem same_comm (a b : Double) : a.same b = b.same a := by
  unfold same
  cases a.position <;> cases b.position <;> simp only
  exact Bool.beq_comm

end Double

namespace FiniteDouble

def toDouble (x : FiniteDouble) : Double := .signed x.negative x.rank (Nat.le_of_lt x.finite)

/-- The magnitude in multiples of 2 ^ -1074. -/
def units (x : FiniteDouble) : Nat := Double.units x.rank

/-- The value when it is an integer. -/
def toInt? (x : FiniteDouble) : Option Int :=
  if x.units % Double.perOne = 0 then
    let n : Int := x.units / Double.perOne
    some (if x.negative then -n else n)
  else none

/-- Whether the magnitude is below a natural number. -/
def below (x : FiniteDouble) (n : Nat) : Bool := x.units < n * Double.perOne

/-- The nearest finite double; the greatest one stands in for infinity. -/
def ofNat (n : Nat) : FiniteDouble :=
  ⟨false, min (Double.nearestRank n 1) (Double.top - 1), by
    have : 0 < Double.top := by decide
    omega⟩

theorem position_toDouble (x : FiniteDouble) :
    x.toDouble.position = some (if x.negative then -(x.rank : Int) else x.rank) := rfl

end FiniteDouble

end RecordShelf

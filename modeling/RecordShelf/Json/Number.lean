import RecordShelf.Number.Shortest

/-!
# Numbers of JSON values

A number is an integer that fits 64 bits, signed or unsigned, or a finite double. The two kinds
are told apart by equality and by the printed form: a double always shows a fraction or an
exponent.
-/

namespace RecordShelf

-- The power of the core library, whatever else is in scope.
attribute [local instance (2000)] instPowNat

/-- The integers of 64 bits, signed or unsigned. -/
def fits64 (n : Int) : Prop := -2 ^ (63 : Nat) ≤ n ∧ n < 2 ^ (64 : Nat)

instance (n : Int) : Decidable (fits64 n) := inferInstanceAs (Decidable (_ ∧ _))

inductive JsonNumber where
  | integer (value : Int) (fits : fits64 value)
  | float (x : FiniteDouble)
  deriving DecidableEq

/-- Where positional notation ends. -/
structure FloatLayout where
  leastPositional : Int
  greatestPositional : Int

namespace FloatLayout

/-- `d.ddde+X` or `d.ddde-X`; the sign of the exponent is always written. -/
def scientific (ds : List Char) (lead : Int) : List Char :=
  let mantissa :=
    match ds with
    | [] => []
    | [d] => [d]
    | d :: rest => d :: '.' :: rest
  mantissa ++ 'e' :: (if lead < 0 then '-' else '+') :: decimalDigits lead.natAbs

/-- Plain digits with a point and at least one digit after it. -/
def positional (ds : List Char) (lead : Int) : List Char :=
  if lead < 0 then
    '0' :: '.' :: (List.replicate (lead.natAbs - 1) '0' ++ ds)
  else
    let whole := lead.toNat + 1
    if ds.length ≤ whole then
      ds ++ List.replicate (whole - ds.length) '0' ++ ['.', '0']
    else
      ds.take whole ++ '.' :: ds.drop whole

def write (layout : FloatLayout) (x : FiniteDouble) : List Char :=
  let body :=
    if x.rank = 0 then ['0', '.', '0']
    else
      let (ds, lead) := Shortest.digits x.rank
      if layout.leastPositional ≤ lead ∧ lead ≤ layout.greatestPositional then positional ds lead
      else scientific ds lead
  if x.negative then '-' :: body else body

end FloatLayout

/-- Doubles in records are positional from `0.00001` up to sixteen digits before the point. -/
def JsonNumber.layout : FloatLayout := ⟨-5, 15⟩

namespace JsonNumber

theorem fits64_int64 (n : Int64) : fits64 n.toInt := by
  have := n.le_toInt
  have := n.toInt_lt
  unfold fits64
  omega

def ofInt64 (n : Int64) : JsonNumber := .integer n.toInt (fits64_int64 n)

/-- A count; one that no 64 bits hold becomes the nearest double. -/
def ofNat (n : Nat) : JsonNumber :=
  if h : fits64 n then .integer n h else .float (.ofNat n)

def toDouble : JsonNumber → Double
  | .integer n _ => .ofInt n
  | .float x => x.toDouble

def toInt64? : JsonNumber → Option Int64
  | .integer n _ => if n < 2 ^ (63 : Nat) then some (.ofInt n) else none
  | .float _ => none

theorem toInt64?_ofInt64 (n : Int64) : (ofInt64 n).toInt64? = some n := by
  have hfits : n.toInt < 2 ^ 63 := n.toInt_lt
  rw [ofInt64, toInt64?, if_pos hfits, Int64.ofInt_toInt]

def toNat? : JsonNumber → Option Nat
  | .integer n _ => if 0 ≤ n then some n.toNat else none
  | .float _ => none

/-- Equality within a kind; the two zeros of the doubles are equal. -/
def same : JsonNumber → JsonNumber → Bool
  | .integer m _, .integer n _ => m == n
  | .float x, .float y => x.toDouble.same y.toDouble
  | _, _ => false

def write : JsonNumber → List Char
  | .integer n _ => decimalInt n
  | .float x => layout.write x

end JsonNumber

end RecordShelf

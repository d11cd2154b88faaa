import RecordShelf.Json.Writer
import RecordShelf.Number.Decimal
import RecordShelf.Text.Blank

/-!
# Loose comparison

Values are compared as numbers when their kinds differ: a numeric string equals its number, and
booleans count as 0 and 1. `dualEq` also takes two values as equal that are written alike.
-/

namespace RecordShelf.Query

-- The power of the core library, whatever else is in scope.
attribute [local instance (2000)] instPowNat

/-- The number a value stands for; `nan` when it stands for none. -/
def toNumber : Json → Double
  | .null => .zero false
  | .bool b => .ofInt (if b then 1 else 0)
  | .number n => n.toDouble
  | .string s =>
    let cs := Text.trim s.toList
    if cs.isEmpty then .zero false else (Double.read? cs).getD .nan
  | .array _ | .object _ => .nan

/-- Doubles below this magnitude that are integers are shown without a fraction. -/
def displayLimit : Nat := 10 ^ (15 : Nat)

/-- The text a value is shown as. -/
def display : Json → String
  | .string s => s
  | .number (.float x) =>
    match x.toInt? with
    | some n => if x.below displayLimit then String.ofList (decimalInt n) else Json.compact (.number (.float x))
    | none => Json.compact (.number (.float x))
  | v => v.compact

/-- Truth values and what stands for them: 1 and 0, `true` and `false`, also as strings. -/
def coerceBool : Json → Option Bool
  | .bool b => some b
  | .number n =>
    if n.toDouble.same (.ofInt 1) then some true
    else if n.toDouble.same (.zero false) then some false
    else none
  | .string s =>
    if s = "true" ∨ s = "1" then some true
    else if s = "false" ∨ s = "0" then some false
    else none
  | _ => none

/-- Equal when shown or as numbers. -/
def dualEq (a b : Json) : Bool :=
  display a == display b || (toNumber a).same (toNumber b)

/-- Equal within a kind, as numbers across kinds; null equals only null, and arrays and objects
only their like. -/
def looseEq : Json → Json → Bool
  | .null, .null => true
  | .null, _ => false
  | _, .null => false
  | .string a, .string b => a == b
  | .bool a, .bool b => a == b
  | .array a, .array b => Json.same (.array a) (.array b)
  | .object a, .object b => Json.same (.object a) (.object b)
  | .array _, _ => false
  | _, .array _ => false
  | .object _, _ => false
  | _, .object _ => false
  | a, b => (toNumber a).same (toNumber b)

/-- The numeric order of two values. -/
def numericCompare? (a b : Json) : Option Ordering :=
  (toNumber a).compare? (toNumber b)

end RecordShelf.Query

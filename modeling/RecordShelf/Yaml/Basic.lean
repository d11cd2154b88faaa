import RecordShelf.Number.Decimal

/-!
# YAML documents

A document is a scalar, a list or a mapping. A scalar keeps its text and whether it was written
plain, because only plain text can stand for a number, a truth value or null.
-/

namespace RecordShelf

-- The power of the core library, whatever else is in scope.
attribute [local instance (2000)] instPowNat

inductive Yaml where
  | scalar (text : String) (plain : Bool)
  | list (items : List Yaml)
  | map (entries : List (String × Yaml))
  deriving Inhabited

namespace Yaml

/-- An empty scalar, which also stands for an empty list or mapping. -/
def empty : Yaml := .scalar "" true

def ofNat (n : Nat) : Yaml := .scalar (String.ofList (decimalDigits n)) true

def text? : Yaml → Option String
  | .scalar text _ => some text
  | _ => none

def items? : Yaml → Option (List Yaml)
  | .list items => some items
  | .scalar "" true => some []
  | _ => none

def entries? : Yaml → Option (List (String × Yaml))
  | .map entries => some entries
  | .scalar "" true => some []
  | _ => none

/-! ## What plain text stands for -/

def isNull (text : String) : Bool := ["", "~", "null", "Null", "NULL"].contains text

def isTruth (text : String) : Bool :=
  ["true", "True", "TRUE", "false", "False", "FALSE"].contains text

/-- Digits with a leading zero, which are no number. -/
def isPadded : List Char → Bool
  | '0' :: c :: cs => (c :: cs).all Char.isDigit
  | _ => false

def digitValue? (base : Nat) (c : Char) : Option Nat :=
  let v :=
    if c.isDigit then c.toNat - 48
    else if 'a' ≤ c ∧ c ≤ 'f' then c.toNat - 87
    else if 'A' ≤ c ∧ c ≤ 'F' then c.toNat - 55
    else 16
  if v < base then some v else none

/-- One or more digits in a base. -/
def readDigits? (base : Nat) (cs : List Char) : Option Nat :=
  if cs.isEmpty then none
  else cs.foldlM (fun n c => (digitValue? base c).map (n * base + ·)) 0

/-- Digits in base 16, 8 or 2, as marked, or decimal digits without padding. -/
def readMagnitude? : List Char → Option Nat
  | '0' :: 'x' :: cs => readDigits? 16 cs
  | '0' :: 'o' :: cs => readDigits? 8 cs
  | '0' :: 'b' :: cs => readDigits? 2 cs
  | cs => if isPadded cs then none else readDigits? 10 cs

/-- A number that plain text stands for, if it is not negative and fits 64 bits. -/
def count? : Yaml → Option Nat
  | .scalar text true =>
    match readMagnitude? (match text.toList with | '+' :: cs => cs | cs => cs) with
    | some n => if n < 2 ^ (64 : Nat) then some n else none
    | none => none
  | _ => none

/-- Plain text that stands for an integer of up to 128 bits. -/
def isInteger (text : String) : Bool :=
  match text.toList with
  | '-' :: cs => (readMagnitude? cs).any (· ≤ 2 ^ (127 : Nat))
  | '+' :: cs => (readMagnitude? cs).any (· < 2 ^ (128 : Nat))
  | cs => (readMagnitude? cs).any (· < 2 ^ (128 : Nat))

/-- Plain text that stands for a number with a fraction or an exponent, or for infinity or no
number. -/
def isFloat (text : String) : Bool :=
  [".inf", ".Inf", ".INF", "+.inf", "+.Inf", "+.INF", "-.inf", "-.Inf", "-.INF", ".nan", ".NaN",
    ".NAN"].contains text ||
  match text.toList with
  | '+' :: '+' :: _ | '+' :: '-' :: _ => false
  | cs => ((Double.read? cs).bind Double.finite?).isSome

/-- Digits that a leading zero makes no number, with or without a sign. -/
def isPaddedText (text : String) : Bool :=
  match text.toList with
  | '-' :: cs | '+' :: cs => isPadded cs
  | cs => isPadded cs

/-- Text that does not stand for itself when it is written plain. -/
def needsQuotes (text : String) : Bool :=
  isNull text || isTruth text || isInteger text || isFloat text || isPaddedText text

end Yaml

end RecordShelf

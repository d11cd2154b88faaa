import RecordShelf.Json.Value

/-!
# Reading JSON

Strict JSON: four kinds of blanks, no raw control characters in strings, no lone surrogates, and
at most 127 nested arrays and objects. A field that comes twice keeps its first place and takes
its last value. An integer that fits no 64 bits is read as a double, and so is `-0`; a number
whose double would be infinite is refused.
-/

namespace RecordShelf.Json

def isBlank (c : Char) : Bool :=
  c == ' ' || c == '\t' || c == '\n' || c == '\r'

def skipBlanks (cs : List Char) : List Char := cs.dropWhile isBlank

def hexValue? (c : Char) : Option Nat :=
  if c.isDigit then some (c.toNat - '0'.toNat)
  else if 'a' ≤ c ∧ c ≤ 'f' then some (c.toNat - 'a'.toNat + 10)
  else if 'A' ≤ c ∧ c ≤ 'F' then some (c.toNat - 'A'.toNat + 10)
  else none

/-- The value of four hexadecimal digits. -/
def hex4? (a b c d : Char) : Option Nat := do
  return (((← hexValue? a) * 16 + (← hexValue? b)) * 16 + (← hexValue? c)) * 16 + (← hexValue? d)

/-- The character of a one-letter escape. -/
def shortEscape? (c : Char) : Option Char :=
  if c = '"' ∨ c = '\\' ∨ c = '/' then some c
  else if c = 'b' then some '\x08'
  else if c = 'f' then some '\x0c'
  else if c = 'n' then some '\n'
  else if c = 'r' then some '\r'
  else if c = 't' then some '\t'
  else none

/-- Puts a character before what has been read after it. -/
def andThen (c : Char) (r : Option (List Char × List Char)) : Option (List Char × List Char) :=
  r.map fun (s, rest) => (c :: s, rest)

/-- The characters of a string up to its closing quote, and what follows the quote. -/
def readChars : List Char → Option (List Char × List Char)
  | [] => none
  | '"' :: rest => some ([], rest)
  | '\\' :: 'u' :: a :: b :: c :: d :: rest =>
    match hex4? a b c d with
    | none => none
    | some n =>
      if 0xD800 ≤ n ∧ n < 0xDC00 then
        match rest with
        | '\\' :: 'u' :: e :: f :: g :: h :: rest =>
          match hex4? e f g h with
          | none => none
          | some m =>
            if 0xDC00 ≤ m ∧ m < 0xE000 then
              andThen (Char.ofNat (0x10000 + (n - 0xD800) * 0x400 + (m - 0xDC00))) (readChars rest)
            else none
        | _ => none
      else if 0xDC00 ≤ n ∧ n < 0xE000 then none
      else andThen (Char.ofNat n) (readChars rest)
  | '\\' :: c :: rest =>
    match shortEscape? c with
    | some e => andThen e (readChars rest)
    | none => none
  | c :: rest =>
    if c = '\\' ∨ c.toNat < 0x20 then none else andThen c (readChars rest)

/-- The fraction after the whole digits: a point with at least one digit, or nothing. -/
def readFraction? (cs : List Char) : Option (List Char × List Char) :=
  match cs with
  | '.' :: rest =>
    let (ds, rest) := takeDigits rest
    if ds.isEmpty then none else some (ds, rest)
  | _ => some ([], cs)

/-- The exponent, if there is one. -/
def readPower? (cs : List Char) : Option (Option Int × List Char) :=
  match cs with
  | c :: rest =>
    if c = 'e' ∨ c = 'E' then (readExponent? rest).map fun (e, rest) => (some e, rest)
    else some (none, cs)
  | [] => some (none, cs)

/-- An integer as a number, or as a double if it fits no 64 bits. -/
def integerNumber? (negative : Bool) (n : Nat) : Option JsonNumber :=
  let value : Int := if negative then -n else n
  if h : fits64 value ∧ ¬(negative = true ∧ n = 0) then some (.integer value h.1)
  else (Decimal.toDouble ⟨negative, n, 0⟩).finite?.map .float

/-- A minus sign, if the text starts with one, and the rest. -/
def takeMinus : List Char → Bool × List Char
  | '-' :: cs => (true, cs)
  | cs => (false, cs)

def readNumber? (cs : List Char) : Option (JsonNumber × List Char) := do
  let (negative, cs) := takeMinus cs
  let (whole, rest) := takeDigits cs
  if whole.isEmpty || (whole.head? == some '0' && whole.length > 1) then none
  let (fraction, rest) ← readFraction? rest
  let (power, rest) ← readPower? rest
  let number ←
    if fraction.isEmpty && power.isNone then integerNumber? negative (ofDecimalDigits whole)
    else
      (Decimal.ofParts negative whole fraction (power.getD 0)).toDouble.finite?.map .float
  return (number, rest)

/-- The rest after a word, if the text starts with it. -/
def dropWord? : List Char → List Char → Option (List Char)
  | [], cs => some cs
  | w :: word, c :: cs => if w = c then dropWord? word cs else none
  | _ :: _, [] => none

mutual

/-- A value after blanks, inside containers that allow `depth` more levels. The fuel bounds the
number of values, items and fields on the way. -/
def readValue : Nat → Nat → List Char → Option (Json × List Char)
  | 0, _, _ => none
  | fuel + 1, depth, cs =>
    match skipBlanks cs with
    | 'n' :: rest => (dropWord? ['u', 'l', 'l'] rest).map fun rest => (.null, rest)
    | 't' :: rest => (dropWord? ['r', 'u', 'e'] rest).map fun rest => (.bool true, rest)
    | 'f' :: rest => (dropWord? ['a', 'l', 's', 'e'] rest).map fun rest => (.bool false, rest)
    | '"' :: rest => (readChars rest).map fun (s, rest) => (.string (String.ofList s), rest)
    | '[' :: rest =>
      match depth with
      | 0 => none
      | depth + 1 =>
        match skipBlanks rest with
        | ']' :: rest => some (.array [], rest)
        | rest => (readItems fuel depth rest).map fun (items, rest) => (.array items, rest)
    | '{' :: rest =>
      match depth with
      | 0 => none
      | depth + 1 =>
        match skipBlanks rest with
        | '}' :: rest => some (.object [], rest)
        | rest =>
          (readFields fuel depth rest).map fun (fields, rest) =>
            (.object (Named.ofEntries fields), rest)
    | cs => (readNumber? cs).map fun (n, rest) => (.number n, rest)

/-- Items up to the closing bracket. -/
def readItems : Nat → Nat → List Char → Option (List Json × List Char)
  | 0, _, _ => none
  | fuel + 1, depth, cs =>
    match readValue fuel depth cs with
    | none => none
    | some (v, rest) =>
      match skipBlanks rest with
      | ']' :: rest => some ([v], rest)
      | ',' :: rest => (readItems fuel depth rest).map fun (items, rest) => (v :: items, rest)
      | _ => none

/-- Fields up to the closing brace. -/
def readFields : Nat → Nat → List Char → Option (List (String × Json) × List Char)
  | 0, _, _ => none
  | fuel + 1, depth, cs =>
    match skipBlanks cs with
    | '"' :: rest =>
      match readChars rest with
      | none => none
      | some (k, rest) =>
        match skipBlanks rest with
        | ':' :: rest =>
          match readValue fuel depth rest with
          | none => none
          | some (v, rest) =>
            match skipBlanks rest with
            | '}' :: rest => some ([(String.ofList k, v)], rest)
            | ',' :: rest =>
              (readFields fuel depth rest).map fun (fields, rest) =>
                ((String.ofList k, v) :: fields, rest)
            | _ => none
        | _ => none
    | _ => none

end

/-- A whole text as a value with at most `depth` nested containers. -/
def readWithin? (depth : Nat) (cs : List Char) : Option Json :=
  match readValue (2 * cs.length + 2) depth cs with
  | some (v, rest) => if (skipBlanks rest).isEmpty then some v else none
  | none => none

/-- The nesting that is accepted in files, columns and params. -/
def depthLimit : Nat := 127

def read? (s : String) : Option Json := readWithin? depthLimit s.toList

/-- The value in the bytes of a file; bytes that are no text hold none. -/
def ofBytes? (bytes : ByteArray) : Option Json :=
  (String.fromUTF8? bytes).bind read?

end RecordShelf.Json

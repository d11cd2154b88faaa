import RecordShelf.Text.Blank
import RecordShelf.Time.Timestamp

/-!
# Reading moments

Three forms are read. `Timestamp.readStrict?` takes a date, a time and an offset with every field in
full width. `Timestamp.readRelaxed?` takes the same with unpadded fields and blanks between them.
`Timestamp.readPlain?` takes a date and a time in universal time, unpadded as well.
-/

namespace RecordShelf.Timestamp

-- The power of the core library, whatever else is in scope.
attribute [local instance (2000)] instPowNat

/-- What a step reads, and the rest of the text. -/
abbrev Step (α : Type) := List Char → Option (α × List Char)

/-- A number of at least `least` and at most `most` digits. -/
def number (least most : Nat) : Step Nat := fun cs =>
  let ds := (cs.take most).takeWhile Char.isDigit
  if ds.length < least then none else some (ofDecimalDigits ds, cs.drop ds.length)

/-- A character that has to be there. -/
def mark (c : Char) (cs : List Char) : Option (List Char) :=
  match cs with
  | d :: rest => if d = c then some rest else none
  | [] => none

/-- The letter or space between a date and a time. -/
def separator (cs : List Char) : Option (List Char) :=
  match cs with
  | c :: rest => if c = 'T' ∨ c = 't' ∨ c = ' ' then some rest else none
  | [] => none

/-- A fraction in nanoseconds, if a point follows; digits after the ninth count for nothing. -/
def fraction : Step Nat
  | '.' :: cs =>
    let ds := (cs.take 9).takeWhile Char.isDigit
    if ds.isEmpty then none
    else some (ofDecimalDigits ds * 10 ^ (9 - ds.length), (cs.drop ds.length).dropWhile Char.isDigit)
  | cs => some (0, cs)

/-- The sign of an offset. -/
def offsetSign : Step Int
  | '+' :: cs => some (1, cs)
  | '-' :: cs => some (-1, cs)
  | '\u2212' :: cs => some (-1, cs)
  | _ => none

/-- An offset in seconds of less than a day; `between` passes what stands before the minutes. -/
def offset (between : List Char → Option (List Char)) : Step Int
  | 'Z' :: cs => some (0, cs)
  | 'z' :: cs => some (0, cs)
  | cs => do
    let (sign, cs) ← offsetSign cs
    let (hours, cs) ← number 2 2 cs
    let (minutes, cs) ← number 2 2 (← between cs)
    if minutes ≤ 59 ∧ hours ≤ 23 then return (sign * (hours * 3600 + minutes * 60 : Nat), cs)
    else none

/-! ## Fields in full width -/

def strictDate : Step Date := fun cs => do
  let (year, cs) ← number 4 4 cs
  let (month, cs) ← number 2 2 (← mark '-' cs)
  let (day, cs) ← number 2 2 (← mark '-' cs)
  return (⟨year, month, day⟩, cs)

def strictClock : Step Clock := fun cs => do
  let (hour, cs) ← number 2 2 cs
  let (minute, cs) ← number 2 2 (← mark ':' cs)
  let (second, cs) ← number 2 2 (← mark ':' cs)
  let (nano, cs) ← fraction cs
  return (⟨hour, minute, second, nano⟩, cs)

def readStrict? (cs : List Char) : Option Timestamp := do
  let (d, cs) ← strictDate cs
  let (c, cs) ← strictClock (← separator cs)
  let (offset, cs) ← offset (mark ':') cs
  if cs.isEmpty then ofParts? d c offset else none

/-! ## Unpadded fields -/

/-- A number of one or two digits after blanks. -/
def field : Step Nat := fun cs => number 1 2 (Text.trimStart cs)

/-- A year after blanks: up to four digits, or any number of them after a sign. -/
def year : Step Int := fun cs =>
  match Text.trimStart cs with
  | '-' :: cs => (number 1 cs.length cs).map fun (n, rest) => (-(n : Int), rest)
  | '+' :: cs => (number 1 cs.length cs).map fun (n, rest) => ((n : Int), rest)
  | cs => (number 1 4 cs).map fun (n, rest) => ((n : Int), rest)

/-- A date; `pass` passes what may stand before a mark. -/
def looseDate (pass : List Char → List Char) : Step Date := fun cs => do
  let (year, cs) ← year cs
  let (month, cs) ← field (← mark '-' (pass cs))
  let (day, cs) ← field (← mark '-' (pass cs))
  return (⟨year, month, day⟩, cs)

def looseClock (pass : List Char → List Char) : Step Clock := fun cs => do
  let (hour, cs) ← field cs
  let (minute, cs) ← field (← mark ':' (pass cs))
  let (second, cs) ← field (← mark ':' (pass cs))
  return (⟨hour, minute, second, 0⟩, cs)

/-- `YYYY-MM-DD HH:MM:SS` in universal time. -/
def readPlain? (cs : List Char) : Option Timestamp := do
  let (d, cs) ← looseDate id cs
  let (c, cs) ← looseClock id (Text.trimStart cs)
  if cs.isEmpty then ofParts? d c 0 else none

/-- An offset, or the name of universal time. -/
def looseOffset : Step Int
  | a :: b :: c :: cs =>
    if [a, b, c].map Char.toUpper = ['U', 'T', 'C'] then some (0, cs)
    else offset (fun cs => some (cs.dropWhile fun c => c == ':' || Text.isWhite c)) (a :: b :: c :: cs)
  | cs => offset some cs

def readRelaxed? (cs : List Char) : Option Timestamp := do
  let (d, cs) ← looseDate Text.trimStart cs
  let (c, cs) ← looseClock Text.trimStart (← separator cs)
  let (nano, cs) ← fraction cs
  let (offset, cs) ← looseOffset (Text.trimStart cs)
  if (Text.trimStart cs).isEmpty then ofParts? d { c with nano := nano } offset else none

/-- A moment in one of the forms that people write in records. -/
def read? (text : String) : Option Timestamp :=
  (readStrict? text.toList).or (readPlain? text.toList)

end RecordShelf.Timestamp

import RecordShelf.Text.Alphanumeric
import RecordShelf.Text.Blank

/-!
# Readers

A reader takes a value from the front of a text. When it fails it says where: the error is the
text that was left at the place of failure, so that a message can show it.
-/

namespace RecordShelf.Sql

/-- Takes a value and leaves the rest, or fails with what was left. -/
abbrev Reader (α : Type) := StateT (List Char) (Except (List Char)) α

namespace Reader
open Text

def satisfy (p : Char → Bool) : Reader Char := fun
  | c :: cs => if p c then .ok (c, cs) else .error (c :: cs)
  | [] => .error []

def char (c : Char) : Reader Char := satisfy (· == c)

/-- A run of characters, possibly empty. -/
def run (p : Char → Bool) : Reader (List Char) := fun cs =>
  .ok (cs.takeWhile p, cs.dropWhile p)

/-- A run of at least one character. -/
def run1 (p : Char → Bool) : Reader (List Char) := fun cs =>
  if (cs.takeWhile p).isEmpty then .error cs else .ok (cs.takeWhile p, cs.dropWhile p)

def blanks : Reader (List Char) := run isSpacing

def blanks1 : Reader (List Char) := run1 isSpacing

/-- The second reader starts anew where the first one failed. -/
def either {α : Type} (first second : Reader α) : Reader α := fun cs =>
  match first cs with
  | .ok result => .ok result
  | .error _ => second cs

def optional {α : Type} (reader : Reader α) : Reader (Option α) := fun cs =>
  match reader cs with
  | .ok (a, rest) => .ok (some a, rest)
  | .error _ => .ok (none, cs)

/-- A reader with a condition on its value; a value that fails it is put back. -/
def filterMap {α β : Type} (reader : Reader α) (f : α → Option β) : Reader β := fun cs =>
  match reader cs with
  | .ok (a, rest) =>
    match f a with
    | some b => .ok (b, rest)
    | none => .error cs
  | .error place => .error place

/-- What follows a text at the front. -/
def dropText? : List Char → List Char → Option (List Char)
  | [], cs => some cs
  | w :: word, c :: cs => if c = w then dropText? word cs else none
  | _ :: _, [] => none

def text (word : List Char) : Reader Unit := fun cs =>
  match dropText? word cs with
  | some rest => .ok ((), rest)
  | none => .error cs

/-- What follows a word in lower case at the front, whatever the case of its letters. -/
def dropWord? : List Char → List Char → Option (List Char)
  | [], cs => some cs
  | w :: word, c :: cs => if c.toLower = w then dropWord? word cs else none
  | _ :: _, [] => none

/-- A word, in any case, that does not run on. -/
def keyword (word : String) : Reader Unit := fun cs =>
  match dropWord? word.toList cs with
  | none => .error cs
  | some [] => .ok ((), [])
  | some (c :: rest) => if isWord c then .error (c :: rest) else .ok ((), c :: rest)

/-- The value of a whole text. -/
def whole {α : Type} (reader : Reader α) (cs : List Char) : Except (List Char) α :=
  match reader cs with
  | .ok (a, []) => .ok a
  | .ok (_, rest) => .error rest
  | .error place => .error place

def whole? {α : Type} (reader : Reader α) (cs : List Char) : Option α :=
  (whole reader cs).toOption

theorem whole?_eq_some_iff {α : Type} {reader : Reader α} {cs : List Char} {a : α} :
    whole? reader cs = some a ↔ reader cs = .ok (a, []) := by
  unfold whole? whole
  split <;> simp_all [Except.toOption]

end Reader

end RecordShelf.Sql

import RecordShelf.Sql.Code
import RecordShelf.Sql.Statement

/-!
# Searching and cutting at the top level

`findKeyword` finds the first whole-word occurrence of a keyword in top-level code, whatever the
case of its letters and the blanks between its words. `splitTopLevel` cuts at a separator,
`splitConjunction` at every AND, and `placeholders` lists the placeholders of a text; parentheses
do not hide those.
-/

namespace RecordShelf.Sql
open Text

/-- What follows a word in lower case at the front, all of it in top-level code. -/
def matchWord? : List Char → List Marked → Option (List Marked)
  | [], ms => some ms
  | w :: word, m :: ms => if m.1.toLower = w ∧ m.isTop then matchWord? word ms else none
  | _ :: _, [] => none

/-- What follows at least one blank. -/
def matchGap? : List Marked → Option (List Marked)
  | m :: ms => if isAsciiBlank m.1 then some (ms.dropWhile fun m => isAsciiBlank m.1) else none
  | [] => none

def startsWord : List Marked → Bool
  | m :: _ => isAsciiWord m.1
  | [] => false

/-- What follows the words of a keyword, unless the last of them runs on. -/
def matchWords? : List (List Char) → List Marked → Option (List Marked)
  | [], _ => none
  | [word], ms => do
    let rest ← matchWord? word ms
    if startsWord rest then none else some rest
  | word :: words, ms => do
    let rest ← matchWord? word ms
    let rest ← matchGap? rest
    matchWords? words rest

/-- The first occurrence at or after a position, given whether a word character precedes it. -/
def findKeywordFrom (words : List (List Char)) (position : Nat) (afterWord : Bool) :
    List Marked → Option (Nat × Nat)
  | [] => none
  | m :: ms =>
    match if m.isTop && !afterWord then matchWords? words (m :: ms) else none with
    | some rest => some (position, position + ((m :: ms).length - rest.length))
    | none => findKeywordFrom words (position + 1) (isAsciiWord m.1) ms

/-- Start and end of the first occurrence of a keyword, given by its words in lower case. -/
def findKeyword (words : List (List Char)) (cs : List Char) : Option (Nat × Nat) :=
  findKeywordFrom words 0 false (mark cs)

/-- The pieces between separators. -/
def cutAt (sep : Char) : List Marked → List (List Char)
  | [] => [[]]
  | m :: ms =>
    match cutAt sep ms with
    | piece :: pieces =>
      if m.1 = sep ∧ m.isTop then [] :: piece :: pieces else (m.1 :: piece) :: pieces
    | [] => [[m.1]]

/-- The trimmed pieces between separators in top-level code. -/
def splitTopLevel (sep : Char) (cs : List Char) : List (List Char) :=
  (cutAt sep (mark cs)).map trim

def andWord : List (List Char) := ["and".toList]

/-- Cuts at the first AND and goes on with what follows it; the fuel bounds the cuts. -/
def conjuncts : Nat → List Char → List (List Char)
  | 0, cs => [cs]
  | fuel + 1, cs =>
    match findKeyword andWord cs with
    | some (start, stop) => cs.take start :: conjuncts fuel (cs.drop stop)
    | none => [cs]

/-- The terms of a conjunction, without empty ones. -/
def splitConjunction (cs : List Char) : List (List Char) :=
  ((conjuncts cs.length cs).map trim).filter fun term => !term.isEmpty

/-- The name after a colon, if one starts there. -/
def placeholderName? (cs : List Char) : Option String :=
  let name := cs.takeWhile isAsciiWord
  match name with
  | [] => none
  | c :: _ => if c.isDigit then none else some (String.ofList name)

/-- The placeholders of a marked text, given the character before it. -/
def placeholdersFrom (before : Option Char) : List Marked → List Placeholder
  | [] => []
  | m :: ms =>
    let here :=
      if m.isQuoted then []
      else if m.1 = '?' then [.positional]
      else if m.1 = ':' ∧ !(before.any fun c => isAsciiWord c || c == ':') then
        ((placeholderName? (ms.map (·.1))).map Placeholder.named).toList
      else []
    here ++ placeholdersFrom (some m.1) ms

/-- The placeholders outside quotes, in text order. -/
def placeholders (cs : List Char) : List Placeholder :=
  placeholdersFrom none (mark cs)

end RecordShelf.Sql

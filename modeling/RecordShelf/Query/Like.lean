/-!
# LIKE patterns

A percent sign matches any run of characters without a line feed, and every other character
matches itself. A text matches when some piece of it does. `Like.search` keeps, for every place
in the text, whether the part of the pattern read so far can end there.
-/

namespace RecordShelf.Query.Like

/-- The places of a text, each with whether a match can have come so far. -/
abbrev Reach := List Bool

/-- Moves every place over one character, where the text has it. -/
def step (c : Char) (text : List Char) (reach : Reach) : Reach :=
  false :: List.zipWith (fun r d => r && d == c) reach text

/-- Spreads every place to the right up to the next line feed. -/
def spread (carried : Bool) : List Char → Reach → Reach
  | _, [] => []
  | text, r :: reach =>
    let here := r || carried
    here :: (match text with
      | [] => []
      | d :: text => spread (here && d != '\n') text reach)

/-- One character of the pattern. -/
def advance (text : List Char) (reach : Reach) (c : Char) : Reach :=
  if c = '%' then spread false text reach else step c text reach

/-- A match may start and end anywhere. -/
def search (pattern text : List Char) : Bool :=
  (pattern.foldl (advance text) (List.replicate (text.length + 1) true)).any id

end RecordShelf.Query.Like

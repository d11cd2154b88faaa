import RecordShelf.Error

/-!
# Paths

A path tells the steps to a place, from the root or from the working directory. One dot stays where
it is and two dots go one level up. A path that ends with a slash can only mean a directory. A text
that is too long or holds the null character is no path.
-/

namespace RecordShelf.CommandLine

structure Path where
  /-- Whether the path starts at the root. -/
  absolute : Bool
  /-- The names and dots on the way. -/
  parts : List String
  /-- Whether a slash ends the path. -/
  slashed : Bool
  deriving DecidableEq, Repr

namespace Path

def ofText (text : String) : Path :=
  ⟨text.toList.head? == some '/', (text.splitOn "/").filter (· ≠ ""),
    text.toList.getLast? == some '/'⟩

/-- The bytes that a path can have, and one more. -/
def maxSize : Nat := 4096

/-- The path that a text gives. -/
def read (text : String) : Except IoCause Path :=
  if text.toList.contains '\x00' then .error .nulInName
  else if maxSize ≤ text.utf8ByteSize then .error .nameTooLong
  else .ok (ofText text)

/-- The empty path names nothing. -/
def isEmpty (p : Path) : Bool := !p.absolute && p.parts.isEmpty

/-- The steps to the place; a slash at the end asks for a step inside. -/
def steps (p : Path) : List String := if p.slashed then p.parts ++ ["."] else p.parts

/-- The path before its last part. Dots count for nothing but as the first part of a path that does
not start at the root. -/
def parent? (p : Path) : Option Path :=
  match p.parts with
  | [] => none
  | first :: rest =>
    let parts := [first].filter (fun part => part ≠ "." ∨ !p.absolute) ++ rest.filter (· ≠ ".")
    if parts.isEmpty then none else some ⟨p.absolute, parts.dropLast, false⟩

theorem length_parent? {p q : Path} (h : p.parent? = some q) : q.parts.length < p.parts.length := by
  obtain ⟨absolute, parts, slashed⟩ := p
  cases parts with
  | nil => simp [parent?] at h
  | cons first rest =>
    simp only [parent?] at h
    split at h
    · simp at h
    · obtain rfl := Option.some.inj h
      have hf := List.length_filter_le (fun part => decide (part ≠ "." ∨ !absolute)) [first]
      have hr := List.length_filter_le (fun part => decide (part ≠ ".")) rest
      simp only [List.length_dropLast, List.length_append, List.length_cons, List.length_nil] at *
      omega

end Path

end RecordShelf.CommandLine

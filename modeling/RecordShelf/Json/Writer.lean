import RecordShelf.Json.Value

/-!
# Written JSON

Two forms of a value: `compact` without blanks, and `pretty` with one field or item a line and two
spaces a level, as record files hold it. In strings the quote, the backslash and control characters
are escaped and everything else is written as it is.
-/

namespace RecordShelf.Json

def hexDigit (n : Nat) : Char := Nat.digitChar n

/-- One character inside quotes. -/
def escapeChar (c : Char) : List Char :=
  if c = '"' then ['\\', '"']
  else if c = '\\' then ['\\', '\\']
  else if c = '\x08' then ['\\', 'b']
  else if c = '\x0c' then ['\\', 'f']
  else if c = '\n' then ['\\', 'n']
  else if c = '\r' then ['\\', 'r']
  else if c = '\t' then ['\\', 't']
  else if c.toNat < 0x20 then
    ['\\', 'u', '0', '0', hexDigit (c.toNat / 16), hexDigit (c.toNat % 16)]
  else [c]

def writeString (s : String) : List Char :=
  '"' :: (s.toList.flatMap escapeChar ++ ['"'])

/-- How a container is laid out: what follows its opening bracket and each comma at a depth, what
precedes its closing bracket, and what follows a colon. -/
structure Layout where
  newline : Nat → List Char
  afterColon : List Char

/-- No blanks at all. -/
def Layout.compact : Layout := ⟨fun _ => [], []⟩

/-- A line for each entry, two spaces a level. -/
def Layout.pretty : Layout := ⟨fun level => '\n' :: List.replicate (2 * level) ' ', [' ']⟩

mutual

def write (layout : Layout) (level : Nat) : Json → List Char
  | .null => ['n', 'u', 'l', 'l']
  | .bool true => ['t', 'r', 'u', 'e']
  | .bool false => ['f', 'a', 'l', 's', 'e']
  | .number n => n.write
  | .string s => writeString s
  | .array [] => ['[', ']']
  | .array (v :: rest) =>
    '[' :: (layout.newline (level + 1) ++ write layout (level + 1) v ++
      writeItems layout level rest ++ layout.newline level ++ [']'])
  | .object [] => ['{', '}']
  | .object ((k, v) :: rest) =>
    '{' :: (layout.newline (level + 1) ++ writeString k ++ ':' :: layout.afterColon ++
      write layout (level + 1) v ++ writeFields layout level rest ++ layout.newline level ++ ['}'])

/-- The items after the first, each with its comma. -/
def writeItems (layout : Layout) (level : Nat) : List Json → List Char
  | [] => []
  | v :: rest =>
    ',' :: (layout.newline (level + 1) ++ write layout (level + 1) v ++ writeItems layout level rest)

/-- The fields after the first, each with its comma. -/
def writeFields (layout : Layout) (level : Nat) : List (String × Json) → List Char
  | [] => []
  | (k, v) :: rest =>
    ',' :: (layout.newline (level + 1) ++ writeString k ++ ':' :: layout.afterColon ++
      write layout (level + 1) v ++ writeFields layout level rest)

end

def compact (v : Json) : String := String.ofList (write .compact 0 v)

def pretty (v : Json) : String := String.ofList (write .pretty 0 v)

end RecordShelf.Json

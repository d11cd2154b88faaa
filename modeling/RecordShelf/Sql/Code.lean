import RecordShelf.Text.Alphanumeric
import RecordShelf.Text.Blank

/-!
# Code and quotes

Keywords, separators and placeholders count only in code, which is what stands outside quoted
strings and backtick names. `mark` gives each character of a text its mark: quoted, or code with
the number of parentheses open around it.
-/

namespace RecordShelf.Sql

inductive Mark where
  | quoted
  | code (depth : Nat)
  deriving DecidableEq, Repr

/-- A character with its mark. -/
abbrev Marked := Char × Mark

/-- Where a scan stands: inside which quote, after a backslash in it or not, and how deep. -/
structure ScanState where
  quote : Option Char
  escaped : Bool
  depth : Nat
  deriving DecidableEq

namespace ScanState

def start : ScanState := ⟨none, false, 0⟩

/-- A parenthesis opens one level after itself and closes one level before itself; a backslash in
a string hides the next character, but not in a backtick name. -/
def step (s : ScanState) (c : Char) : Mark × ScanState :=
  match s.quote with
  | some q =>
    (.quoted,
      if s.escaped then { s with escaped := false }
      else if c = '\\' ∧ q ≠ '`' then { s with escaped := true }
      else if c = q then { s with quote := none }
      else s)
  | none =>
    if c = '\'' ∨ c = '"' ∨ c = '`' then (.quoted, { s with quote := some c })
    else if c = '(' then (.code s.depth, { s with depth := s.depth + 1 })
    else if c = ')' then (.code (s.depth - 1), { s with depth := s.depth - 1 })
    else (.code s.depth, s)

end ScanState

def markFrom (s : ScanState) : List Char → List Marked
  | [] => []
  | c :: cs => (c, (s.step c).1) :: markFrom (s.step c).2 cs

def mark (cs : List Char) : List Marked := markFrom .start cs

/-- Code outside all parentheses. -/
def Marked.isTop (m : Marked) : Bool := m.2 == .code 0

def Marked.isQuoted (m : Marked) : Bool := m.2 == .quoted

theorem markFrom_map_fst (s : ScanState) (cs : List Char) : (markFrom s cs).map (·.1) = cs := by
  induction cs generalizing s with
  | nil => rfl
  | cons c cs ih => simp [markFrom, ih]

@[simp] theorem length_markFrom (s : ScanState) (cs : List Char) :
    (markFrom s cs).length = cs.length := by
  rw [← List.length_map (·.1), markFrom_map_fst]

/-- The state after a text. -/
def ScanState.run (s : ScanState) (cs : List Char) : ScanState :=
  cs.foldl (fun s c => (s.step c).2) s

theorem markFrom_append (s : ScanState) (cs ds : List Char) :
    markFrom s (cs ++ ds) = markFrom s cs ++ markFrom (s.run cs) ds := by
  induction cs generalizing s with
  | nil => rfl
  | cons c cs ih => simp [markFrom, ScanState.run, ih]

end RecordShelf.Sql

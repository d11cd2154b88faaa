/-!
# Blank characters

Three classes of blanks are in use: all of Unicode's white space (around a whole statement), the
five ASCII blanks of a file that counts as empty, and the four blanks of the term grammar.
-/

namespace RecordShelf.Text

/-- Unicode white space. -/
def isWhite (c : Char) : Bool :=
  let n := c.toNat
  (9 ≤ n && n ≤ 13) || n == 0x20 || n == 0x85 || n == 0xa0 || n == 0x1680 ||
    (0x2000 ≤ n && n ≤ 0x200a) || n == 0x2028 || n == 0x2029 || n == 0x202f || n == 0x205f ||
    n == 0x3000

/-- Space, tab, line feed, form feed or carriage return. -/
def isAsciiBlank (c : Char) : Bool :=
  c == ' ' || c == '\t' || c == '\n' || c == '\x0c' || c == '\r'

/-- Space, tab, line feed or carriage return. -/
def isSpacing (c : Char) : Bool :=
  c == ' ' || c == '\t' || c == '\n' || c == '\r'

def trimStart (cs : List Char) : List Char :=
  cs.dropWhile isWhite

def trimEnd (cs : List Char) : List Char :=
  (cs.reverse.dropWhile isWhite).reverse

def trim (cs : List Char) : List Char :=
  trimEnd (trimStart cs)

theorem isWhite_of_isSpacing {c : Char} (h : isSpacing c = true) : isWhite c = true := by
  simp only [isSpacing, Bool.or_eq_true, beq_iff_eq] at h
  rcases h with ((rfl | rfl) | rfl) | rfl <;> decide

end RecordShelf.Text

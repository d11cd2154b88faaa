import RecordShelf.Sql.TopLevel

/-!
# Clauses

What follows the table of a statement is cut at the first top-level occurrence of each clause
keyword. A clause's body runs from its keyword to the next one in the text, whatever their order.
-/

namespace RecordShelf.Sql
open Text

inductive ClauseName where
  | where_
  | groupBy
  | having
  | orderBy
  | limit
  | offset
  deriving DecidableEq, Repr

namespace ClauseName

def all : List ClauseName := [.where_, .groupBy, .having, .orderBy, .limit, .offset]

def words : ClauseName → List (List Char)
  | .where_ => ["where".toList]
  | .groupBy => ["group".toList, "by".toList]
  | .having => ["having".toList]
  | .orderBy => ["order".toList, "by".toList]
  | .limit => ["limit".toList]
  | .offset => ["offset".toList]

end ClauseName

/-- A clause keyword with where it starts and stops. -/
structure ClauseMark where
  name : ClauseName
  start : Nat
  stop : Nat
  deriving DecidableEq

/-- The clause keywords of a text in the order in which they stand. -/
def clauseMarks (cs : List Char) : List ClauseMark :=
  (ClauseName.all.filterMap fun name =>
    (findKeyword name.words cs).map fun (start, stop) => ⟨name, start, stop⟩).mergeSort
      fun a b => a.start ≤ b.start

/-- The text between two positions. -/
def slice (cs : List Char) (start stop : Nat) : List Char := (cs.take stop).drop start

/-- The start of the next clause, or the end of the text. -/
def nextStart (cs : List Char) : List ClauseMark → Nat
  | m :: _ => m.start
  | [] => cs.length

/-- Each clause with its trimmed body. -/
def clauseBodies (cs : List Char) : List ClauseMark → List (ClauseName × List Char)
  | [] => []
  | m :: ms => (m.name, trim (slice cs m.stop (nextStart cs ms))) :: clauseBodies cs ms

/-- What precedes the first clause, and the clauses. -/
structure Clauses where
  head : List Char
  bodies : List (ClauseName × List Char)

def Clauses.ofText (cs : List Char) : Clauses :=
  let marks := clauseMarks cs
  ⟨trim (slice cs 0 (nextStart cs marks)), clauseBodies cs marks⟩

def Clauses.body? (clauses : Clauses) (name : ClauseName) : Option (List Char) :=
  (clauses.bodies.find? fun body => body.1 = name).map (·.2)

end RecordShelf.Sql

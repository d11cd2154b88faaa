import RecordShelf.Query.Comparison
import RecordShelf.Sql.Statement

/-!
# Order of rows

Missing values and null come first, then numbers and what reads as a number, then other strings,
then arrays and objects. Rows that are equal under all columns keep their order.
-/

namespace RecordShelf.Query
open Sql

/-- The group of a value in an ordering. -/
def rank : Option Json → Nat
  | none | some .null => 0
  | some (.bool _) | some (.number _) => 1
  | some (.string s) => if (toNumber (.string s)).isNan then 2 else 1
  | some (.array _) | some (.object _) => 3

def compareValues (a b : Option Json) : Ordering :=
  match rank a, rank b with
  | 1, 1 => (numericCompare? (a.getD .null) (b.getD .null)).getD .eq
  | 2, 2 => compare ((a.bind Json.string?).getD "") ((b.bind Json.string?).getD "")
  | i, j => compare i j

/-- The first column that tells two rows apart decides. -/
def compareRows : List OrderItem → Record → Record → Ordering
  | [], _, _ => .eq
  | item :: rest, a, b =>
    match compareValues (a.get? item.column) (b.get? item.column) with
    | .eq => compareRows rest a b
    | o => match item.direction with
      | .ascending => o
      | .descending => o.swap

def sortRows (order : List OrderItem) (rows : List Record) : List Record :=
  rows.mergeSort fun a b => compareRows order a b != .gt

/-- A limit or an offset as a count. -/
def asCount : Json → Option Nat
  | .number n => n.toNat?
  | .string s => readCount? (Text.trim s.toList)
  | _ => none

end RecordShelf.Query

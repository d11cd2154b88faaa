import RecordShelf.Proofs.Query.Equalities
import RecordShelf.Proofs.Query.Failures
import RecordShelf.Proofs.Sql.FieldLookup

/-!
# Records found by their own values

A record is stored as it is given, while the comparison of a lookup may read the operand anew. Text,
numbers and truth values are equal to themselves under every kind of equality but one: in a boolean
field the operand becomes the truth value that it stands for, and a stored 1 is not `true`. So a
record that has been stored is found by each of its values except those.
-/

namespace RecordShelf

/-- Text, a number or a truth value. -/
def Json.IsScalar : Json → Prop
  | .bool _ | .number _ | .string _ => True
  | .null | .array _ | .object _ => False

/-! ## Values equal to themselves -/

namespace Query
open Sql

section
variable {rules : Rules} {s s' : Shelf} {table field : String} {r : Record} {v : Json}

/-- The statement of a lookup. -/
def lookup (table field : String) : Select :=
  ⟨[.star], table, lookupConditions field, [], none, none⟩

/-- The INSERT of a whole record. -/
def store (table : String) : Insert := ⟨table, .object, false⟩

end

end Query

end RecordShelf

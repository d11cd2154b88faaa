import RecordShelf.Json.Writer

/-!
# Identity of a record

The key of a record comes from one of its fields: the table's own identity field if it has one,
else the first usable field of a common list. A non-empty string and a number other than zero are
usable.
-/

namespace RecordShelf

structure Identity where
  field : String
  key : String
  value : Json

/-- The key that a value gives, if it can tell records apart. -/
def Identity.keyOfValue : Json → Option String
  | .string s => if s.isEmpty then none else some s
  | .number n => if n.toDouble.same (.zero false) then none else some (String.ofList n.write)
  | _ => none

structure IdentityRules where
  fallback : List String
  primary : Named String

namespace IdentityRules

/-- The identity field of one table. -/
def primary? (rules : IdentityRules) (table : String) : Option String :=
  rules.primary.get? table

/-- The fields to look at, in order. -/
def candidates (rules : IdentityRules) (table : String) : List String :=
  (rules.primary? table).toList ++ rules.fallback

def resolve (rules : IdentityRules) (table : String) (r : Record) : Option Identity :=
  (rules.candidates table).findSome? fun field => do
    let value ← r.get? field
    let key ← Identity.keyOfValue value
    return ⟨field, key, value⟩

end IdentityRules

end RecordShelf

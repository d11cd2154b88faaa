import RecordShelf.Proofs.Query.Changes
import RecordShelf.Settings.Basic

/-!
# Keys and identities

An INSERT puts a record under the key of its identity, or under a stamp if it has none, and a key is
never changed afterwards. An UPDATE writes into the fields that identities come from like into any
others, and an upsert may bring such a field without a usable value, which hides the identity of the
record that was there. In every run without such a statement the identity of each record has the
record's key.
-/

namespace RecordShelf

namespace Identity
variable {r old : Record} {field : String} {fields : List String} {identity : Identity}

end Identity

namespace Query
open Sql RecordShelf.Shelf
variable {rules : Rules} {table key : String} {params : Params} {auto : List String} {s s' : Shelf}

/-- A record that has an identity has it for its key. -/
def InStep (rules : IdentityRules) (table key : String) (r : Record) : Prop :=
  ∀ identity, rules.resolve table r = some identity → identity.key = key

/-- All records of a table have their identities for their keys. -/
def Settled (rules : Rules) (table : String) (s : Shelf) : Prop :=
  ∀ key r, s.record (table, key) = some r → InStep rules.identity table key r

section
variable {requests : List Request}

end

end Query

end RecordShelf

import RecordShelf.Proofs.Database.Writers

/-!
# Which writes are read back

What a writer has written is read back exactly for the numbers that make a plain name and, where the
record is looked up under the user's key, tell users apart.
-/

namespace RecordShelf
open Sql Text

namespace DatabaseM

variable {db db' : Database} {conference peer user : Int64} {result : Query.Result}

/-! ## Roles -/

end DatabaseM

end RecordShelf

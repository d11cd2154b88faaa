import RecordShelf.Database.Lookup
import RecordShelf.Text.Blank

/-!
# Roles of users

The role of a user in a conference is kept in the conference's table of roles. A role that is
unknown or cannot be read is zero.
-/

namespace RecordShelf

-- The power of the core library, whatever else is in scope.
attribute [local instance (2000)] instPowNat

/-- Up to this magnitude every integer is a double. -/
def maxExactInteger : Nat := 2 ^ (53 : Nat)

/-- An integral double of moderate size as an integer. -/
def FiniteDouble.toInt64? (x : FiniteDouble) : Option Int64 :=
  match x.toInt? with
  | some n => if n.natAbs ≤ maxExactInteger then some (.ofInt n) else none
  | none => none

/-- The integer that a number or a text denotes. -/
def Json.toInt64? : Json → Option Int64
  | .number (.integer n fits) => JsonNumber.toInt64? (.integer n fits)
  | .number (.float x) => x.toInt64?
  | .string s => readInt64? (Text.trim s.toList)
  | _ => none

def idText (n : Int64) : String := String.ofList (decimalInt n.toInt)

/-- The cached role of a user in a conference. -/
def Invalidation.role (conference user : Int64) : Invalidation :=
  ⟨.userRoles, CacheKey.ofPair conference.toInt user.toInt⟩

namespace DatabaseM

def rolesTable (conference : Int64) : String := "roles_" ++ idText conference

/-- The role that is stored. -/
def storedRole (conference user : Int64) : DatabaseM Int64 := do
  let r ← record? ((Invalidation.role conference user).recordName?.getD "") (rolesTable conference)
    (idText user)
  return ((r.bind (·.field? "role_id")).bind Json.toInt64?).getD 0

/-- The stored role, zero if it cannot be read. -/
def loadRole (conference user : Int64) : DatabaseM Int64 :=
  tryCatch (storedRole conference user) fun _ => pure 0

def roleValue (conference user : Int64) : DatabaseM Json := do
  return .ofInt64 (← loadRole conference user)

def userRole (conference user : Int64) : DatabaseM Int64 := do
  let value ← lookup .userRoles (Invalidation.role conference user).key (roleValue conference user)
  return value.toInt64?.getD 0

/-- The roles of distinct users. -/
def userRoles (conference : Int64) (users : List Int64) : DatabaseM (List (Int64 × Int64)) := do
  let found ← lookupAll .userRoles (fun user => (Invalidation.role conference user).key) users
    (roleValue conference)
  return found.map fun entry => (entry.1, entry.2.toInt64?.getD 0)

def setUserRole (conference user role : Int64) : DatabaseM Query.Result :=
  executeWrite
    ("INSERT INTO " ++ rolesTable conference ++ " (user_id, role_id) VALUES (?, ?) " ++
      "ON DUPLICATE KEY UPDATE role_id = VALUES(role_id)")
    (.positional [.ofInt64 user, .ofInt64 role])
    [.role conference user]

end DatabaseM

end RecordShelf

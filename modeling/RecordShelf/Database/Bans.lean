import RecordShelf.Database.Roles

/-!
# Ban lists

Whom the users of a chat have blocked, as arrays or as JSON text. The records stand in a table of
the chat; older ones stand in the conference table under keys that start with the chat's number.
-/

namespace RecordShelf

/-- The users that a record says are blocked. -/
def blockedUsers (r : Record) : List Json :=
  match (r.get? "blocked_users").map Json.ofColumn with
  | some (.array users) => users
  | _ => []

/-- The cached ban list of a chat. -/
def Invalidation.banList (peer : Int64) : Invalidation := ⟨.banLists, CacheKey.ofInt peer.toInt⟩

namespace DatabaseM

def bansTable (peer : Int64) : String := "conference_" ++ idText peer

/-- Whether a key of the conference table belongs to a chat. -/
def isOldKey (peer : Int64) (key : String) : Bool :=
  (idText peer ++ "_").toList.isPrefixOf key.toList

def storedBanList (peer : Int64) : DatabaseM Json := do
  let rows := (← execute ("SELECT user_id, blocked_users FROM " ++ bansTable peer) .none).toRows
  let old := (← onShelf (ShelfM.scan "conference")).filter fun row => isOldKey peer row.1
  return .array (rows.flatMap blockedUsers ++ old.flatMap fun row => blockedUsers row.2)

def banList (peer : Int64) : DatabaseM (List Json) := do
  let value ← lookup .banLists (Invalidation.banList peer).key (storedBanList peer)
  return value.items?.getD []

/-- Replaces whom a user has blocked. -/
def setBanList (peer user : Int64) (blocked : List Json) : DatabaseM Query.Result :=
  executeWrite
    ("INSERT INTO " ++ bansTable peer ++ " (user_id, blocked_users) VALUES (?, ?) " ++
      "ON DUPLICATE KEY UPDATE blocked_users = VALUES(blocked_users)")
    (.positional [.ofInt64 user, .string (Json.array blocked).compact])
    [.banList peer]

end DatabaseM

end RecordShelf

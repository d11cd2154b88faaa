import RecordShelf.Database.Roles

/-!
# Nicknames

The nickname of a user in a chat is kept in the chat's table of nicknames.
-/

namespace RecordShelf

/-- The cached nickname of a user in a chat. -/
def Invalidation.nickname (peer user : Int64) : Invalidation :=
  ⟨.userNicknames, CacheKey.ofPair peer.toInt user.toInt⟩

namespace DatabaseM

def nicknamesTable (peer : Int64) : String := "nicknames_" ++ idText peer

def storedNickname (peer user : Int64) : DatabaseM Json := do
  let r ← onShelf (ShelfM.get (nicknamesTable peer) (idText user))
  return (r.bind (·.get? "nickname")).getD .null

def userNickname (peer user : Int64) : DatabaseM (Option String) := do
  let value ← lookup .userNicknames (Invalidation.nickname peer user).key (storedNickname peer user)
  return value.string?

def setUserNickname (peer user : Int64) (nickname : String) : DatabaseM Query.Result :=
  executeWrite
    ("INSERT INTO " ++ nicknamesTable peer ++ " (user_id, nickname) VALUES (?, ?) " ++
      "ON DUPLICATE KEY UPDATE nickname = VALUES(nickname)")
    (.positional [.ofInt64 user, .string nickname])
    [.nickname peer user]

end DatabaseM

end RecordShelf

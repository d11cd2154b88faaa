import RecordShelf.Database.Roles

/-!
# Settings of chats

The settings of a chat are one record of the conference table. A chat without a record has the
defaults.
-/

namespace RecordShelf

/-- The settings of a chat that has no record. -/
def defaultChatSettings : Record :=
  ["spam", "links", "cooldown", "groups", "stickers", "docs", "images", "video", "reposts"].map
    (fun name => (name, Json.ofInt64 0)) ++ [("attachments", .array [])]

/-- The cached settings of a chat. -/
def Invalidation.chatSettings (peer : Int64) : Invalidation :=
  ⟨.chatSettings, CacheKey.ofInt peer.toInt⟩

namespace DatabaseM

def storedChatSettings (peer : Int64) : DatabaseM Json := do
  let r ← record? ((Invalidation.chatSettings peer).recordName?.getD "") "conference" (idText peer)
  return r.getD (.object defaultChatSettings)

def chatSettings (peer : Int64) : DatabaseM Record := do
  let value ← lookup .chatSettings (Invalidation.chatSettings peer).key (storedChatSettings peer)
  return value.record?.getD defaultChatSettings

/-- Writes some settings of a chat over the stored ones. -/
def updateChatSettings (peer : Int64) (changes : Record) : DatabaseM Query.Result :=
  executeWrite
    "INSERT INTO conference SET ? ON DUPLICATE KEY UPDATE conference_id = conference_id"
    (.positional [.object (changes.insert "conference_id" (.ofInt64 peer))])
    [.chatSettings peer]

end DatabaseM

end RecordShelf

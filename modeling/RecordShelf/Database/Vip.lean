import RecordShelf.Database.Roles
import RecordShelf.Time.Reader

/-!
# VIP grants

A grant makes a user a VIP until its expiry date, or for good. A grant that has expired is removed
when it is met. Grants are cached as objects.
-/

namespace RecordShelf

structure VipGrant where
  isVip : Bool
  expiry : Option Timestamp
  grantedBy : Option Json
  isPermanent : Bool

namespace VipGrant

def ofRecord (r : Record) : VipGrant where
  isVip := true
  expiry := ((r.get? "expiry_date").bind Json.string?).bind Timestamp.read?
  grantedBy := (r.get? "granted_by").filter fun v => !v.isNull
  isPermanent := ((r.get? "is_permanent").bind Query.coerceBool).getD false

def expiryJson : Option Timestamp → Json
  | some t => .string t.write
  | none => .null

def toJson (g : VipGrant) : Json :=
  .object [("isVip", .bool g.isVip), ("expiryDate", expiryJson g.expiry),
    ("grantedBy", g.grantedBy.getD .null), ("isPermanent", .bool g.isPermanent)]

def bool? : Option Json → Option Bool
  | some (.bool b) => some b
  | _ => none

/-- An expiry date that may be absent; `none` if it is no date. -/
def expiry? : Option Json → Option (Option Timestamp)
  | none | some .null => some none
  | some (.string s) => (Timestamp.readRelaxed? s.toList).map some
  | some _ => none

def ofParts? (isVip expiry grantedBy isPermanent : Option Json) : Option VipGrant := do
  let isVip ← bool? isVip
  let expiry ← expiry? expiry
  let isPermanent ← bool? isPermanent
  return ⟨isVip, expiry, grantedBy.filter fun v => !v.isNull, isPermanent⟩

/-- The grant that a cached value holds: an object, or its four parts in order. -/
def ofJson? : Json → Option VipGrant
  | .object fields =>
    let part := fun name => Named.get? fields name
    ofParts? (part "isVip") (part "expiryDate") (part "grantedBy") (part "isPermanent")
  | .array [isVip, expiry, grantedBy, isPermanent] => ofParts? isVip expiry grantedBy isPermanent
  | _ => none

def isExpired (g : VipGrant) (now : Timestamp) : Bool :=
  !g.isPermanent && g.expiry.any fun expiry => expiry.before now

end VipGrant

/-- The cached grant of a user. -/
def Invalidation.vip (user : Int64) : Invalidation := ⟨.vipStatuses, CacheKey.ofInt user.toInt⟩

namespace DatabaseM

def vipTable : String := "vip_users"

def storedVip (user : Int64) : DatabaseM Json := do
  match ← onShelf (ShelfM.get vipTable (idText user)) with
  | some r => return (VipGrant.ofRecord r).toJson
  | none => return .null

/-- Removes the grant of a user. -/
def removeVip (user : Int64) : DatabaseM Unit := do
  discard <| onShelf (ShelfM.remove vipTable (idText user))
  invalidate (.vip user)

/-- The grant of a user. One that has expired is removed and is none. -/
def vipStatus (user : Int64) : DatabaseM (Option VipGrant) := do
  let value ← lookup .vipStatuses (Invalidation.vip user).key (storedVip user)
  if value.isNull then return none
  match VipGrant.ofJson? value with
  | none => throw (.json "not a VIP status")
  | some grant =>
    if grant.isExpired (.ofMillis (← getThe Database).now) then
      removeVip user
      return none
    else return some grant

end DatabaseM

end RecordShelf

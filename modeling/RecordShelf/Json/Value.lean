import RecordShelf.Json.Number
import RecordShelf.Named

/-!
# JSON values and records

A value is a tree whose objects keep their fields in order. A record is the fields of one object.
-/

namespace RecordShelf

inductive Json where
  | null
  | bool (b : Bool)
  | number (n : JsonNumber)
  | string (s : String)
  | array (items : List Json)
  | object (fields : List (String × Json))
  deriving Inhabited

/-- The fields of one object, in order. -/
abbrev Record := Named Json

namespace Json

def isNull : Json → Bool
  | .null => true
  | _ => false

def string? : Json → Option String
  | .string s => some s
  | _ => none

def record? : Json → Option Record
  | .object r => some r
  | _ => none

def items? : Json → Option (List Json)
  | .array items => some items
  | _ => none

def ofInt64 (n : Int64) : Json := .number (.ofInt64 n)

def ofNat (n : Nat) : Json := .number (.ofNat n)

/-- A field of an object; other values have none. -/
def field? (v : Json) (name : String) : Option Json :=
  v.record?.bind (·.get? name)

mutual

/-- Equality of values; objects are compared without regard to the order of their fields. -/
def same : Json → Json → Bool
  | .null, .null => true
  | .bool a, .bool b => a == b
  | .number a, .number b => a.same b
  | .string a, .string b => a == b
  | .array a, .array b => sameItems a b
  | .object a, .object b => a.length == b.length && sameFields a b
  | _, _ => false

def sameItems : List Json → List Json → Bool
  | [], [] => true
  | a :: as, b :: bs => same a b && sameItems as bs
  | _, _ => false

/-- Every field of the first list is in the record with an equal value. -/
def sameFields : List (String × Json) → Record → Bool
  | [], _ => true
  | (k, v) :: fields, r =>
    (match r.get? k with
      | some w => same v w
      | none => false) && sameFields fields r

end

mutual

/-- How many arrays and objects are nested at most. -/
def depth : Json → Nat
  | .array items => depthItems items + 1
  | .object fields => depthFields fields + 1
  | _ => 0

def depthItems : List Json → Nat
  | [] => 0
  | v :: rest => max (depth v) (depthItems rest)

def depthFields : List (String × Json) → Nat
  | [] => 0
  | (_, v) :: rest => max (depth v) (depthFields rest)

end

end Json

end RecordShelf

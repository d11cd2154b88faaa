import RecordShelf.Query.Comparison
import RecordShelf.Query.Like
import RecordShelf.Query.Params

/-!
# Predicates

A condition with its operand bound is a predicate on records. A missing or null field satisfies
only `!=` against a value and IS NULL. Conditions that could not be read take their params and are
dropped.
-/

namespace RecordShelf.Query
open Sql

inductive Predicate where
  | compare (field : String) (op : CompareOp) (value : Json)
  | like (field : String) (pattern : Option String) (negated : Bool)
  | isNull (field : String) (negated : Bool)

/-- Fields with rules of their own: boolean fields take what stands for a truth value, dual fields
are equal as text or as number. -/
structure FilterRules where
  booleanFields : List String
  dualFields : List String

def FilterRules.isBoolean (rules : FilterRules) (field : String) : Bool :=
  rules.booleanFields.contains field

namespace Predicate

/-- A comparison with its operand bound; an operand without a value is null. -/
def ofCompare (field : String) (op : CompareOp) (value : Option Json) : Predicate :=
  match op with
  | .like => .like field ((value.getD .null).string?) false
  | .notLike => .like field ((value.getD .null).string?) true
  | op => .compare field op (value.getD .null)

/-- Binds conditions in text order. -/
def bindAll (b : Binder) : List Condition → List Predicate × Binder
  | [] => ([], b)
  | .compare field op value :: rest =>
    let (v, b) := b.bind value
    let (predicates, b) := bindAll b rest
    (ofCompare field op v :: predicates, b)
  | .isNull field negated :: rest =>
    let (predicates, b) := bindAll b rest
    (.isNull field negated :: predicates, b)
  | .unread _ placeholders :: rest => bindAll (b.skip placeholders) rest

end Predicate

namespace FilterRules

def equal (rules : FilterRules) (field : String) (actual operand : Json) : Bool :=
  if rules.isBoolean field then
    actual.same (match coerceBool operand with
      | some b => .bool b
      | none => operand)
  else if rules.dualFields.contains field then dualEq actual operand
  else looseEq actual operand

def compare (rules : FilterRules) (field : String) (actual : Json) (op : CompareOp)
    (operand : Json) : Bool :=
  match op with
  | .eq => rules.equal field actual operand
  | .ne => !rules.equal field actual operand
  | .gt => (numericCompare? actual operand).any Ordering.isGT
  | .lt => (numericCompare? actual operand).any Ordering.isLT
  | .ge => (numericCompare? actual operand).any Ordering.isGE
  | .le => (numericCompare? actual operand).any Ordering.isLE
  | .like | .notLike => false

/-- The text that a pattern is searched in; null, arrays and objects have none. -/
def searchable? : Option Json → Option String
  | some (.string s) => some s
  | some (.number n) => some (display (.number n))
  | some (.bool b) => some (display (.bool b))
  | _ => none

def holds (rules : FilterRules) (r : Record) : Predicate → Bool
  | .isNull field negated =>
    ((r.get? field).all Json.isNull) != negated
  | .like field pattern negated =>
    match searchable? (r.get? field), pattern with
    | some text, some pattern => Like.search pattern.toList text.toList != negated
    | _, _ => false
  | .compare field op value =>
    match r.get? field with
    | none | some .null => op == .ne && !value.isNull
    | some actual => rules.compare field actual op value

def «matches» (rules : FilterRules) (r : Record) (predicates : List Predicate) : Bool :=
  predicates.all (rules.holds r)

end FilterRules

end RecordShelf.Query

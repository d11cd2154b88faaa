import RecordShelf.Json.Value
import RecordShelf.Sql.Statement

/-!
# Params and placeholders

Params are a list, taken by placeholders in text order, or a record, looked up by name. A `Binder`
walks through the operands of a statement and keeps the place in the list.
-/

namespace RecordShelf.Query
open Sql

inductive Params where
  | positional (values : List Json)
  | named (fields : Record)

namespace Params

def none : Params := .positional []

/-- An array is a list of params, an object a record of them, `null` no params, and any other
value the only param. -/
def ofJson : Json → Params
  | .array values => .positional values
  | .object fields => .named fields
  | .null => .none
  | v => .positional [v]

/-- The first param of a list, when it is an object; field values can come from it. -/
def record? : Params → Option Record
  | .positional (.object r :: _) => some r
  | _ => Option.none

/-- The columns with the params in order, or with the params of their names. -/
def zipColumns (params : Params) (columns : List String) : Record :=
  match params with
  | .positional values => Named.ofEntries (columns.zip values)
  | .named fields =>
    Named.ofEntries (columns.filterMap fun c => (fields.get? c).map fun v => (c, v))

end Params

/-- The value of a literal; an infinite one is null. -/
def literalValue : Literal → Json
  | .null => .null
  | .bool b => .bool b
  | .int n => .ofInt64 n
  | .float x =>
    match x.finite? with
    | some x => .number (.float x)
    | none => .null
  | .string s => .string s

structure Binder where
  params : Params
  cursor : Nat

namespace Binder

/-- A binder whose first placeholder takes the param at `cursor`. -/
def startingAt (params : Params) (cursor : Nat) : Binder := ⟨params, cursor⟩

def start (params : Params) : Binder := ⟨params, 0⟩

/-- The param of a placeholder. In a list every placeholder takes the next param, whatever its
name; in a record only names find one. -/
def take (b : Binder) (p : Placeholder) : Option Json × Binder :=
  match b.params, p with
  | .positional values, _ => (values[b.cursor]?, { b with cursor := b.cursor + 1 })
  | .named fields, .named name => (fields.get? name, b)
  | .named _, .positional => (none, b)

/-- The value of an operand; a placeholder without a param has none. -/
def bind (b : Binder) : Operand → Option Json × Binder
  | .literal l => (some (literalValue l), b)
  | .placeholder p => b.take p

/-- Passes over placeholders whose values are not needed. -/
def skip (b : Binder) (ps : List Placeholder) : Binder :=
  ps.foldl (fun b p => (b.take p).2) b

/-- Binds an operand that may be absent. -/
def bindOptional (b : Binder) : Option Operand → Option Json × Binder
  | some o => b.bind o
  | none => (none, b)

/-- Binds the operands of columns in order; a column without a value is left out. -/
def bindFields (b : Binder) : List (String × Operand) → List (String × Json)
  | [] => []
  | (column, o) :: rest =>
    let (value, b) := b.bind o
    match value with
    | some v => (column, v) :: b.bindFields rest
    | none => b.bindFields rest

end Binder

end RecordShelf.Query

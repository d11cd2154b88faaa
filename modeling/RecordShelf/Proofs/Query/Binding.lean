import RecordShelf.Proofs.Sql.Counting
import RecordShelf.Query.Execute

/-!
# Binding in order

A binder on a list goes on by one param for each placeholder that it meets, so each value comes from
the place at which the placeholders before it leave the binder. The values of the assignments and
of the conditions of an UPDATE are two such runs.
-/

namespace RecordShelf.Query
open Sql

namespace Binder
variable {α : Type} {values : List Json}

/-- The values of parts that are bound one after the other. -/
def run (step : Binder → α → Option Json × Binder) (b : Binder) : List α → List (Option Json)
  | [] => []
  | a :: rest => (step b a).1 :: run step (step b a).2 rest

def bindAssignment (b : Binder) (a : Assignment) : Option Json × Binder := b.bind a.value

/-- The value of a condition's operand; a condition that could not be read has none, but takes its
params. -/
def bindCondition (b : Binder) : Condition → Option Json × Binder
  | .compare _ _ value => b.bind value
  | .isNull _ _ => (none, b)
  | .unread _ ps => (none, b.skip ps)

/-! ## One step -/

theorem bind_positional (cursor : ℕ) (o : Operand) :
    (bind ⟨.positional values, cursor⟩ o).2 = ⟨.positional values, cursor + o.taken⟩ := by
  cases o with
  | literal l => rfl
  | placeholder p => cases p <;> rfl

theorem bind_placeholder (cursor : ℕ) (p : Placeholder) :
    (bind ⟨.positional values, cursor⟩ (.placeholder p)).1 = values[cursor]? := by
  cases p <;> rfl

theorem skip_positional (cursor : ℕ) (ps : List Placeholder) :
    skip ⟨.positional values, cursor⟩ ps = ⟨.positional values, cursor + ps.length⟩ := by
  induction ps generalizing cursor with
  | nil => rfl
  | cons p ps ih =>
    have htake : (take ⟨.positional values, cursor⟩ p).2 = ⟨.positional values, cursor + 1⟩ := by
      cases p <;> rfl
    rw [skip, List.foldl_cons, htake]
    exact (ih (cursor + 1)).trans (by rw [List.length_cons, Nat.add_assoc, Nat.add_comm 1])

theorem bindCondition_positional (cursor : ℕ) (c : Condition) :
    (bindCondition ⟨.positional values, cursor⟩ c).2 = ⟨.positional values, cursor + c.taken⟩ := by
  cases c with
  | compare field op value => exact bind_positional cursor value
  | isNull field negated => rfl
  | unread text ps => exact skip_positional cursor ps

/-! ## A run -/

/-- The value of a part is taken at the place to which the parts before it have led. -/
theorem getElem?_run {step : Binder → α → Option Json × Binder} {taken : α → ℕ}
    (hstep : ∀ cursor a,
      (step ⟨.positional values, cursor⟩ a).2 = ⟨.positional values, cursor + taken a⟩)
    (cursor : ℕ) (earlier : List α) (a : α) (later : List α) :
    (run step ⟨.positional values, cursor⟩ (earlier ++ a :: later))[earlier.length]? =
      some (step ⟨.positional values, cursor + (earlier.map taken).sum⟩ a).1 := by
  induction earlier generalizing cursor with
  | nil => rfl
  | cons e earlier ih =>
    rw [List.cons_append, run, List.length_cons, List.getElem?_cons_succ, hstep, ih, List.map_cons,
      List.sum_cons, Nat.add_assoc]

/-- A comparison takes the param at the place to which the conditions before it have led. -/
theorem getElem?_run_compare {field : String} {op : CompareOp} {p : Placeholder} (cursor : ℕ)
    (earlier later : List Condition) :
    (run bindCondition ⟨.positional values, cursor⟩
      (earlier ++ .compare field op (.placeholder p) :: later))[earlier.length]? =
        some values[cursor + (earlier.map Condition.taken).sum]? := by
  refine (getElem?_run bindCondition_positional cursor earlier _ later).trans ?_
  rw [bindCondition, bind_placeholder]

theorem bindFields_eq (b : Binder) (assignments : List Assignment) :
    b.bindFields (assignments.map fun a => (a.column, a.value)) =
      (assignments.zip (run bindAssignment b assignments)).filterMap fun bound =>
        bound.2.map fun v => (bound.1.column, v) := by
  induction assignments generalizing b with
  | nil => rfl
  | cons a assignments ih =>
    rw [List.map_cons, bindFields, run, List.zip_cons_cons, List.filterMap_cons, bindAssignment]
    cases hvalue : (b.bind a.value).1 with
    | none => simp only [hvalue, Option.map_none, ih]
    | some v => simp only [hvalue, Option.map_some, ih]

end Binder

/-- The predicate of a condition with the value of its operand. -/
def predicate? (c : Condition) (value : Option Json) : Option Predicate :=
  match c with
  | .compare field op _ => some (.ofCompare field op value)
  | .isNull field negated => some (.isNull field negated)
  | .unread _ _ => none

theorem bindAll_eq (b : Binder) (conditions : List Condition) :
    (Predicate.bindAll b conditions).1 =
      (conditions.zip (Binder.run Binder.bindCondition b conditions)).filterMap fun bound =>
        predicate? bound.1 bound.2 := by
  induction conditions generalizing b with
  | nil => rfl
  | cons c conditions ih =>
    cases c with
    | compare field op value => exact congrArg (_ :: ·) (ih (b.bind value).2)
    | isNull field negated => exact congrArg (_ :: ·) (ih b)
    | unread text ps => exact ih (b.skip ps)

/-! ## The values of an UPDATE -/

/-- The values of the assignments, where no record holds them. -/
def setValues (s : Update) (params : Params) : List (Option Json) :=
  Binder.run Binder.bindAssignment (.start params) s.assignments

/-- The values of the conditions, where no record holds those of the assignments. -/
def whereValues (s : Update) (params : Params) : List (Option Json) :=
  Binder.run Binder.bindCondition (.startingAt params s.setPlaceholders) s.conditions

theorem bindAssignments_eq (s : Update) {params : Params} (h : params.record? = none) :
    bindAssignments s params =
      ((s.assignments.zip (setValues s params)).filterMap fun bound =>
        bound.2.map fun v => (bound.1.column, v), s.setPlaceholders) := by
  rw [bindAssignments, h]
  exact congrArg (·, s.setPlaceholders) (Binder.bindFields_eq _ _)

/-- A value is the param at a place, or no value behind the last one, whatever the params are. -/
def Takes (value : Params → Option (Option Json)) (place : ℕ) : Prop :=
  ∀ values, (Params.positional values).record? = none →
    value (.positional values) = some values[place]?

/-- No value comes from two places. -/
theorem Takes.iff_eq {value : Params → Option (Option Json)} {place : ℕ} (h : Takes value place)
    (n : ℕ) : Takes value n ↔ n = place := by
  refine ⟨fun hn => ?_, fun hn => hn ▸ h⟩
  -- In this list only the param at the place is there and is not null.
  let values : List Json := List.replicate place .null ++ [.bool true]
  have hrecord : (Params.positional values).record? = none := by
    cases place <;> rfl
  have hsame : values[n]? = some (.bool true) := by
    rw [← Option.some.inj ((h values hrecord).symm.trans (hn values hrecord))]
    rw [List.getElem?_append_right (by rw [List.length_replicate]), List.length_replicate,
      Nat.sub_self]
    rfl
  rcases Nat.lt_trichotomy n place with hlt | heq | hgt
  · rw [List.getElem?_append_left (by rwa [List.length_replicate]),
      List.getElem?_replicate_of_lt hlt] at hsame
    exact absurd hsame (by simp)
  · exact heq
  · rw [List.getElem?_eq_none (by simp [values]; omega)] at hsame
    exact absurd hsame (by simp)

end RecordShelf.Query

import RecordShelf.Proofs.Json.Same
import RecordShelf.Query.Predicate

/-!
# The two equalities of conditions

A field is compared loosely or, if it is a dual field, as text and as a number. Both equalities are
symmetric and hold between a value and itself. On values without parts the dual one holds wherever
the loose one does, so that a field which becomes a dual field is found equal to more values and
unequal to fewer. Objects are another matter: two with the same fields in another order are loosely
equal, but are written differently.
-/

namespace RecordShelf

/-- Null, a truth value, a number or a text. -/
def Json.Atomic : Json → Prop
  | .null | .bool _ | .number _ | .string _ => True
  | .array _ | .object _ => False

namespace Query
open Sql
variable {v w : Json}

/-! ## Values -/

theorem looseEq_self (h : v.UniqueNames) : looseEq v v = true := by
  cases v with
  | null => rfl
  | bool b => exact beq_self_eq_true b
  | number n => exact Double.same_self n.toDouble_ne_nan
  | string s => exact beq_self_eq_true s
  | array | object => exact Json.same_self h

theorem dualEq_self (v : Json) : dualEq v v = true := by
  rw [dualEq, beq_self_eq_true, Bool.true_or]

theorem looseEq_comm (hv : v.UniqueNames) (hw : w.UniqueNames) : looseEq v w = looseEq w v := by
  cases v with
  | null => cases w <;> rfl
  | bool a =>
    cases w with
    | bool b => exact Bool.beq_comm
    | number | string => exact Double.same_comm _ _
    | null | array | object => rfl
  | number m =>
    cases w with
    | bool | number | string => exact Double.same_comm _ _
    | null | array | object => rfl
  | string s =>
    cases w with
    | string t => exact Bool.beq_comm
    | bool | number => exact Double.same_comm _ _
    | null | array | object => rfl
  | array items =>
    cases w with
    | array others => exact Json.same_comm hv hw
    | null | bool | number | string | object => rfl
  | object fields =>
    cases w with
    | object others => exact Json.same_comm hv hw
    | null | bool | number | string | array => rfl

theorem dualEq_comm (v w : Json) : dualEq v w = dualEq w v := by
  have htext : (display v == display w) = (display w == display v) := Bool.beq_comm
  rw [dualEq, dualEq, htext, Double.same_comm]

/-- Values without parts are loosely equal as one value or as numbers. -/
theorem eq_or_same_of_looseEq (hv : v.Atomic) (hw : w.Atomic) (h : looseEq v w = true) :
    v = w ∨ (toNumber v).same (toNumber w) = true := by
  cases v with
  | null =>
    cases w with
    | null => exact .inl rfl
    | bool | number | string | array | object => exact absurd h Bool.false_ne_true
  | bool a =>
    cases w with
    | bool b => exact .inl (congrArg Json.bool (beq_iff_eq.1 h))
    | number | string => exact .inr h
    | null | array | object => exact absurd h Bool.false_ne_true
  | number m =>
    cases w with
    | bool | number | string => exact .inr h
    | null | array | object => exact absurd h Bool.false_ne_true
  | string s =>
    cases w with
    | string t => exact .inl (congrArg Json.string (beq_iff_eq.1 h))
    | bool | number => exact .inr h
    | null | array | object => exact absurd h Bool.false_ne_true
  | array | object => exact hv.elim

theorem dualEq_of_looseEq (hv : v.Atomic) (hw : w.Atomic) (h : looseEq v w = true) :
    dualEq v w = true := by
  rcases eq_or_same_of_looseEq hv hw h with rfl | hsame
  · exact dualEq_self v
  · rw [dualEq, hsame, Bool.or_true]

/-! ## Rules -/

/-- A comparison of one of the fields with `=` or `!=`. -/
def Predicate.Equates (fields : List String) : Predicate → Prop
  | .compare field .eq _ | .compare field .ne _ => field ∈ fields
  | _ => False

namespace FilterRules
variable {rules : FilterRules} {fields : List String} {field : String} {r : Record}

/-- The rules under which some more fields are dual fields. -/
def withDual (rules : FilterRules) (fields : List String) : FilterRules :=
  { rules with dualFields := fields ++ rules.dualFields }

theorem equal_withDual_of_notMem (rules : FilterRules) (h : field ∉ fields) (v w : Json) :
    (rules.withDual fields).equal field v w = rules.equal field v w := by
  have hdual : (rules.withDual fields).dualFields.contains field =
      rules.dualFields.contains field := by
    rw [withDual, List.contains_append, Bool.eq_false_iff.2 (mt List.contains_iff_mem.1 h),
      Bool.false_or]
  rw [equal, equal, hdual]
  rfl

/-- A field that has become a dual field is still equal to the values that it was equal to. -/
theorem equal_withDual (hv : v.Atomic) (hw : w.Atomic) (h : rules.equal field v w = true) :
    (rules.withDual fields).equal field v w = true := by
  by_cases hmem : field ∈ fields
  · have hdual : (rules.withDual fields).dualFields.contains field = true :=
      List.contains_iff_mem.2 (List.mem_append_left _ hmem)
    have hbool : (rules.withDual fields).isBoolean field = rules.isBoolean field := rfl
    rw [equal] at h ⊢
    rw [hbool, hdual, if_pos (rfl : true = true)]
    split_ifs at h ⊢
    · exact h
    · exact h
    · exact dualEq_of_looseEq hv hw h
  · rwa [equal_withDual_of_notMem rules hmem]

/-- A value that is there is compared by the rules; where there is none or it is null, the rules do
not matter. -/
theorem holds_compare_cases (r : Record) (field : String) (op : CompareOp) (w : Json) :
    (∃ v, r.get? field = some v ∧ ∀ rules : FilterRules,
      rules.holds r (.compare field op w) = rules.compare field v op w) ∨
    ∀ rules rules' : FilterRules,
      rules.holds r (.compare field op w) = rules'.holds r (.compare field op w) := by
  cases hget : r.get? field with
  | none => exact .inr fun rules rules' => by simp only [holds, hget]
  | some v =>
    cases v with
    | null => exact .inr fun rules rules' => by simp only [holds, hget]
    | bool | number | string | array | object =>
      exact .inl ⟨_, rfl, fun rules => by simp only [holds, hget]⟩

theorem holds_eq_withDual (hr : ∀ v, r.get? field = some v → v.Atomic) (hw : w.Atomic)
    (h : rules.holds r (.compare field .eq w) = true) :
    (rules.withDual fields).holds r (.compare field .eq w) = true := by
  rcases holds_compare_cases r field .eq w with ⟨v, hget, hholds⟩ | hsame
  · rw [hholds] at h ⊢
    exact equal_withDual (hr v hget) hw h
  · rwa [hsame _ rules]

theorem holds_ne_of_withDual (hr : ∀ v, r.get? field = some v → v.Atomic) (hw : w.Atomic)
    (h : (rules.withDual fields).holds r (.compare field .ne w) = true) :
    rules.holds r (.compare field .ne w) = true := by
  rcases holds_compare_cases r field .ne w with ⟨v, hget, hholds⟩ | hsame
  · rw [hholds, compare, Bool.not_eq_true', Bool.eq_false_iff] at h ⊢
    exact mt (equal_withDual (hr v hget) hw) h
  · rwa [hsame _ (rules.withDual fields)]

theorem holds_withDual_of_not_equates {p : Predicate} (h : ¬p.Equates fields) :
    (rules.withDual fields).holds r p = rules.holds r p := by
  cases p with
  | isNull | like => rfl
  | compare field op w =>
    rcases holds_compare_cases r field op w with ⟨v, -, hholds⟩ | hsame
    · rw [hholds, hholds]
      cases op with
      | eq => exact equal_withDual_of_notMem rules h v w
      | ne => exact congrArg (!·) (equal_withDual_of_notMem rules h v w)
      | gt | lt | ge | le | like | notLike => rfl
    · exact hsame _ _

end FilterRules

/-- The loose and the dual equality are each symmetric and hold between every value and itself, no
object having a name twice, and on null, truth values, numbers and texts the loose one implies the
dual one. So under any rules a field that becomes a dual field keeps all its matches for `=` where
it and the operand have no parts, and gets no new ones for `!=`; other conditions match as before. -/
theorem equalities_cohere :
    (∀ v : Json, v.UniqueNames → looseEq v v = true) ∧ (∀ v : Json, dualEq v v = true) ∧
    (∀ v w : Json, v.UniqueNames → w.UniqueNames → looseEq v w = looseEq w v) ∧
    (∀ v w : Json, dualEq v w = dualEq w v) ∧
    (∀ v w : Json, v.Atomic → w.Atomic → looseEq v w = true → dualEq v w = true) ∧
    ∀ (rules : FilterRules) (fields : List String) (r : Record),
      (∀ (field : String) (w : Json), (∀ v, r.get? field = some v → v.Atomic) → w.Atomic →
        (rules.holds r (.compare field .eq w) = true →
          (rules.withDual fields).holds r (.compare field .eq w) = true) ∧
        ((rules.withDual fields).holds r (.compare field .ne w) = true →
          rules.holds r (.compare field .ne w) = true)) ∧
      ∀ p : Predicate, ¬p.Equates fields →
        (rules.withDual fields).holds r p = rules.holds r p := by
  refine ⟨fun v => looseEq_self, dualEq_self, fun v w => looseEq_comm, dualEq_comm,
    fun v w => dualEq_of_looseEq, fun rules fields r => ⟨fun field w hr hw => ?_, fun p => ?_⟩⟩
  · exact ⟨FilterRules.holds_eq_withDual hr hw, FilterRules.holds_ne_of_withDual hr hw⟩
  · exact FilterRules.holds_withDual_of_not_equates

/-- Two points with their fields in different orders. -/
def point : Json := .object [("x", .ofNat 1), ("y", .array [.bool true, .null])]

def turnedPoint : Json := .object [("y", .array [.bool true, .null]), ("x", .ofNat 1)]

/-- The two points are loosely equal both ways round, although they are written differently. The
text `05` under a field that has become a dual field is equal to 5, to which it was equal before,
and to the text `5`, to which it was not; it is unequal to 6, to which it was unequal before. -/
theorem equalities_cohere_points :
    point.UniqueNames ∧ turnedPoint.UniqueNames ∧ looseEq point point = true ∧
    looseEq point turnedPoint = true ∧ looseEq turnedPoint point = true ∧
    dualEq point turnedPoint = false ∧
    let rules : FilterRules := ⟨[], []⟩
    let r : Record := [("level", .string "05")]
    rules.holds r (.compare "level" .eq (.ofNat 5)) = true ∧
    (rules.withDual ["level"]).holds r (.compare "level" .eq (.ofNat 5)) = true ∧
    rules.holds r (.compare "level" .eq (.string "5")) = false ∧
    (rules.withDual ["level"]).holds r (.compare "level" .eq (.string "5")) = true ∧
    (rules.withDual ["level"]).holds r (.compare "level" .ne (.ofNat 6)) = true ∧
    rules.holds r (.compare "level" .ne (.ofNat 6)) = true := by
  have hpoint : point.UniqueNames := ⟨by decide, trivial, ⟨trivial, trivial, trivial⟩, trivial⟩
  have hturned : turnedPoint.UniqueNames :=
    ⟨by decide, ⟨trivial, trivial, trivial⟩, trivial, trivial⟩
  obtain ⟨hself, -, hcomm, -, -, hrules⟩ := equalities_cohere
  have hequal : looseEq point turnedPoint = true := by decide +kernel
  have hbefore : FilterRules.holds ⟨[], []⟩ [("level", .string "05")]
      (.compare "level" .eq (.ofNat 5)) = true := by decide +kernel
  have hatomic : ∀ v, Named.get? [("level", Json.string "05")] "level" = some v → v.Atomic := by
    intro v hv
    obtain rfl := Option.some.inj hv
    trivial
  have hunequal : (FilterRules.withDual ⟨[], []⟩ ["level"]).holds [("level", .string "05")]
      (.compare "level" .ne (.ofNat 6)) = true := by decide +kernel
  obtain ⟨hmonotone, -⟩ := hrules ⟨[], []⟩ ["level"] [("level", .string "05")]
  exact ⟨hpoint, hturned, hself point hpoint, hequal,
    (hcomm turnedPoint point hturned hpoint).trans hequal, by decide +kernel, hbefore,
    (hmonotone "level" (.ofNat 5) hatomic trivial).1 hbefore, by decide +kernel, by decide +kernel,
    hunequal, (hmonotone "level" (.ofNat 6) hatomic trivial).2 hunequal⟩

end Query

end RecordShelf

import RecordShelf.Proofs.Query.UpdateFrame
import RecordShelf.Proofs.Sql.Numerals

/-!
# Filters with a numeral

A DELETE or an UPDATE whose only condition compares a field with a numeral works on the records for
which the comparison holds. With an integer of more than 64 bits there is no comparison left, and it
works on all records.
-/

namespace RecordShelf

namespace Query
open Sql

/-- Whether a record is among those that the term chooses: one that cannot be read chooses all. -/
def chooses (rules : FilterRules) (t : NumericTerm) (r : Record) : Bool :=
  match t.numeral.literal? with
  | some l => rules.holds r (.compare t.field t.op (literalValue l))
  | none => true

theorem bindAll_numericTerm (t : NumericTerm) (b : Binder) :
    (Predicate.bindAll b [t.condition]).1 =
      match t.numeral.literal? with
      | some l => [.compare t.field t.op (literalValue l)]
      | none => [] := by
  rw [NumericTerm.condition]
  cases t.numeral.literal? with
  | none => rfl
  | some l =>
    have hop : Predicate.ofCompare t.field t.op (some (literalValue l)) =
        .compare t.field t.op (literalValue l) := by
      cases hop : t.op with
      | like => exact absurd hop t.no_like
      | notLike => exact absurd hop t.no_notLike
      | eq | ne | gt | lt | ge | le => rfl
    exact congrArg ([·]) hop

theorem matches_numericTerm (rules : FilterRules) (t : NumericTerm) (b : Binder) (r : Record) :
    rules.matches r (Predicate.bindAll b [t.condition]).1 = chooses rules t r := by
  rw [bindAll_numericTerm, chooses]
  cases t.numeral.literal? with
  | none => rfl
  | some l => exact Bool.and_true _

theorem chooses_of_not_readable {rules : FilterRules} {t : NumericTerm} (h : ¬t.numeral.Readable)
    (r : Record) : chooses rules t r = true := by
  rw [← Numeral.isSome_literal?_iff, Bool.not_eq_true, Option.isSome_eq_false_iff,
    Option.isNone_iff_eq_none] at h
  rw [chooses, h]

theorem matching_numericTerm (rules : Rules) (t : NumericTerm) (b : Binder)
    (rows : List (String × Record)) : matching rules (Predicate.bindAll b [t.condition]).1 rows =
      rows.filter fun row => chooses rules.filter t row.2 := by
  rw [matching]
  exact List.filter_congr fun row _ => matches_numericTerm rules.filter t b row.2

/-- What becomes of a condition that compares a field with a numeral, whatever the field is called, of
however many digits the numeral is, and whatever stands between the parts. The condition is the
comparison with the number exactly when the numeral has a point or is an integer of 64 bits, and else
a term that chooses every record. On every shelf a DELETE with this condition takes away the records
that it chooses and no others, and an UPDATE writes these over. Whole texts are read so too, when the
field is called neither AND nor like the first word of a clause. -/
theorem numeric_term_filters (rules : Rules) (t : NumericTerm) :
    Condition.ofText t.text = t.condition ∧
    ((∃ l, t.condition = .compare t.field t.op (.literal l)) ↔ t.numeral.Readable) ∧
    (∀ b r, rules.filter.matches r (Predicate.bindAll b [Condition.ofText t.text]).1 =
      chooses rules.filter t r) ∧
    (¬t.numeral.Readable → ∀ r, chooses rules.filter t r = true) ∧
    (∀ (s : Shelf) (table : String) (params : Params) (rows : List (String × Record)),
      s.Wellformed → s.scan table = .ok rows →
        let found := rows.filter fun row => chooses rules.filter t row.2
        (executeDelete rules ⟨table, [Condition.ofText t.text]⟩ params).run s =
          (.ok (.affected found.length none),
            s.without table (found.map fun row => fileName row.1)) ∧
        ∀ assignments n entries, s.tableEntries table = .ok entries →
          s.writable entries found = found →
            let update : Update := ⟨table, assignments, n, [Condition.ofText t.text]⟩
            (executeUpdate rules update params).run s = (.ok (.affected found.length none),
              overwritten rules (bindAssignments update params).1 s table entries found
                found.length)) ∧
    (∀ table column, Names.isTable table = true → FieldName t.field → t.field ≠ "and" →
      FieldName column →
        parse (String.ofList (deleteText table t.text)) =
          .ok (.delete ⟨folded table, [Condition.ofText t.text]⟩) ∧
        parse (String.ofList (updateText table column t.text)) =
          .ok (.update ⟨folded table, [⟨column, .placeholder .positional⟩], 1,
            [Condition.ofText t.text]⟩)) := by
  rw [t.ofText_text]
  refine ⟨rfl, ?_, matches_numericTerm rules.filter t, chooses_of_not_readable,
    fun s table params rows hs hscan => ?_, fun table column htable hfield hand hcolumn =>
      ⟨t.parse_delete htable hfield hand, t.parse_update htable hfield hand hcolumn⟩⟩
  · rw [← Numeral.isSome_literal?_iff, NumericTerm.condition]
    cases t.numeral.literal? with
    | some l => exact iff_of_true ⟨l, rfl⟩ rfl
    | none =>
      refine iff_of_false ?_ Bool.false_ne_true
      rintro ⟨l, hl⟩
      cases hl
  · intro found
    have hfound : ∀ b, matching rules (Predicate.bindAll b [t.condition]).1 rows = found :=
      fun b => matching_numericTerm rules t b rows
    refine ⟨run_executeDelete hs hscan (hfound _), fun assignments n entries he hwritable => ?_⟩
    have hpredicates : matching rules (updatePredicates ⟨table, assignments, n, [t.condition]⟩ params)
        rows = found := hfound _
    have hrun := (run_executeUpdate hs he hscan hpredicates).1 hwritable
    rwa [hwritable] at hrun

/-- A note with a number. -/
def numberedNote : Record := [("a", .number (.integer 1 (by decide)))]

theorem storable_numberedNote : Storable numberedNote := ⟨⟨by decide, trivial, trivial⟩, by decide⟩

/-- The field is less than -12.50. -/
def lessTerm : NumericTerm where
  field := "a"
  before := [' ']
  op := .lt
  angle := false
  after := []
  numeral := ⟨true, ⟨['1', '2'], by decide, List.all_eq_true.1 rfl⟩,
    some ⟨['5', '0'], by decide, List.all_eq_true.1 rfl⟩⟩
  plain := .of_all (by decide) (by decide)
  spacing := List.all_eq_true.1 rfl
  no_like := by decide
  no_notLike := by decide

/-- A note with a greater number is not taken away. -/
theorem numeric_term_filters_note :
    lessTerm.text = "a <-12.50".toList ∧
    parse (String.ofList (deleteText "notes" lessTerm.text)) =
      .ok (.delete ⟨folded "notes", [Condition.ofText lessTerm.text]⟩) ∧
    (executeDelete ⟨⟨[], []⟩, ⟨[], []⟩⟩ ⟨"notes", [Condition.ofText lessTerm.text]⟩ .none).run
      (note numberedNote) = (.ok (.affected 0 none), note numberedNote) := by
  have hkept : chooses ⟨[], []⟩ lessTerm numberedNote = false := by decide +kernel
  have hfield : FieldName "a" := .of_all (by decide) (by decide) (by decide)
  obtain ⟨-, -, -, -, hruns, hparse⟩ := numeric_term_filters ⟨⟨[], []⟩, ⟨[], []⟩⟩ lessTerm
  obtain ⟨hdelete, -⟩ := hruns (note numberedNote) "notes" .none _ (wellformed_note _)
    (scan_note storable_numberedNote)
  have hfound : [("1", numberedNote)].filter (fun row => chooses ⟨[], []⟩ lessTerm row.2) = [] := by
    rw [List.filter_cons_of_neg (by rw [hkept]; exact Bool.false_ne_true), List.filter_nil]
  rw [hfound, List.map_nil, Shelf.without_nil] at hdelete
  exact ⟨by decide, (hparse "notes" "a" (by decide) hfield (by decide) hfield).1, hdelete⟩

/-- With the least integer that is too great the same note is taken away. -/
theorem long_integer_chooses_all :
    parse "DELETE FROM notes WHERE a = 9223372036854775808" =
      .ok (.delete ⟨"notes", [.unread "a = 9223372036854775808" []]⟩) ∧
    (note numberedNote).scan "notes" = .ok [("1", numberedNote)] ∧
    (executeDelete ⟨⟨[], []⟩, ⟨[], []⟩⟩ ⟨"notes", [.unread "a = 9223372036854775808" []]⟩ .none).run
      (note numberedNote) = (.ok (.affected 1 none), (note numberedNote).without "notes" ["1.json"]) :=
  ⟨by decide +kernel, scan_note storable_numberedNote, run_executeDelete_note storable_numberedNote rfl⟩

end Query

end RecordShelf

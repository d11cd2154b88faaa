import RecordShelf.Proofs.Cache.Keys
import RecordShelf.Proofs.Json.ValueText
import RecordShelf.Proofs.Query.UpdateFrame
import RecordShelf.Proofs.Query.Upsert

/-!
# Comparisons with null

An operand is null when it is written NULL, when its param is null and when there is no param for it.
A field that is compared with it for equality matches in one case only: it is a dual field, for which
null is written `null` and counts as zero, so that a stored 0, a blank text or the text `null` is taken
for it. A DELETE or an UPDATE whose key has no param touches no other record.
-/

namespace RecordShelf

theorem Double.same_zero_iff {x : Double} :
    x.same (.zero false) = true ↔ ∃ negative, x = .zero negative := by
  cases x with
  | nan => exact iff_of_false Bool.false_ne_true (by rintro ⟨negative, h⟩; exact Double.noConfusion h)
  | signed negative rank bound =>
    constructor
    · intro hsame
      by_contra hne
      have hrank : 0 < rank := by
        apply Nat.pos_of_ne_zero
        rintro rfl
        exact hne ⟨negative, rfl⟩
      rw [Double.same_zero_of_pos bound hrank] at hsame
      exact absurd hsame Bool.false_ne_true
    · rintro ⟨other, hzero⟩
      rw [hzero]
      cases other <;> rfl

/-- What a dual field takes for null: false, zero, a text that is blank or reads as zero, and the
text `null`. -/
def Json.StandsForNull : Json → Prop
  | .null | .array _ | .object _ => False
  | .bool b => b = false
  | .number (.integer n _) => n = 0
  | .number (.float x) => x.rank = 0
  | .string s => s = "null" ∨ Text.trim s.toList = [] ∨
      ∃ negative, Double.read? (Text.trim s.toList) = some (.zero negative)

namespace Query
open Sql

/-! ## Values -/

theorem display_null : display .null = "null" := rfl

/-- A number is written with a minus sign or a digit in front, and so is not written like null. -/
theorem display_number_ne_null (n : JsonNumber) : display (.number n) ≠ "null" := by
  have hwritten : Json.compact (.number n) ≠ "null" := by
    intro hnull
    have hlist : n.write = "null".toList := by
      rw [← hnull, Json.compact, String.toList_ofList, Json.write]
    have hread : Json.readNumber? (n.write ++ []) = some (n, []) :=
      Json.readNumber?_write n (by simp [NumberEnd])
    rw [List.append_nil] at hread
    obtain ⟨c, tail, hhead, hc⟩ := Json.readNumber?_head hread
    rw [hlist] at hhead
    obtain ⟨rfl, -⟩ := List.cons.inj hhead
    exact absurd hc (by decide)
  have hinteger : ∀ k : ℤ, String.ofList (decimalInt k) ≠ "null" := by
    intro k hnull
    have hlist : decimalInt k = "null".toList := by rw [← hnull, String.toList_ofList]
    have hmem : 'u' ∈ decimalInt k := by rw [hlist]; decide
    rw [decimalInt] at hmem
    split_ifs at hmem
    · rcases List.mem_cons.1 hmem with h | h
      · exact absurd h (by decide)
      · exact not_mem_decimalDigits (by decide) h
    · exact not_mem_decimalDigits (by decide) hmem
  cases n with
  | integer k hk => exact hwritten
  | float x =>
    rw [display]
    split
    · split_ifs
      · exact hinteger _
      · exact hwritten
    · exact hwritten

/-- Arrays and objects are written in brackets. -/
theorem compact_ne_null {v : Json} {c : Char} {tail : List Char} (hc : c ≠ 'n')
    (h : Json.write .compact 0 v = c :: tail) : v.compact ≠ "null" := by
  intro hnull
  rw [Json.compact, h] at hnull
  have hlist := congrArg String.toList hnull
  rw [String.toList_ofList] at hlist
  exact hc (List.cons.inj hlist).1

theorem dualEq_null_iff {v : Json} (hv : v ≠ .null) : dualEq v .null = true ↔ v.StandsForNull := by
  have hzero : toNumber .null = .zero false := rfl
  rw [dualEq, Bool.or_eq_true, beq_iff_eq, display_null, hzero]
  cases v with
  | null => exact absurd rfl hv
  | bool b =>
    cases b with
    | false => exact iff_of_true (Or.inr (by decide +kernel)) rfl
    | true => exact iff_of_false (by decide +kernel) Bool.noConfusion
  | number n =>
    rw [or_iff_right (display_number_ne_null n)]
    cases n with
    | integer k hk =>
      exact (Bool.eq_iff_iff.1 Double.ofInt_same_zero).trans decide_eq_true_iff
    | float x =>
      refine Double.same_zero_iff.trans ⟨?_, fun hrank => ⟨x.negative, ?_⟩⟩
      · rintro ⟨negative, h⟩
        exact (Double.signed.inj h).2
      · obtain ⟨negative, rank, finite⟩ := x
        obtain rfl : rank = 0 := hrank
        rfl
  | string s =>
    refine or_congr_right ?_
    simp only [toNumber]
    split_ifs with hblank
    · exact iff_of_true rfl (Or.inl (List.isEmpty_iff.1 hblank))
    · rw [or_iff_right fun hnil => hblank (List.isEmpty_iff.2 hnil), Double.same_zero_iff]
      cases Double.read? (Text.trim s.toList) with
      | none =>
        refine iff_of_false ?_ ?_
        · rintro ⟨negative, h⟩
          exact Double.noConfusion h
        · rintro ⟨negative, h⟩
          exact nomatch h
      | some x => simp only [Option.getD_some, Option.some.injEq]
  | array items =>
    refine iff_of_false ?_ id
    rintro (hwritten | hnumber)
    · cases items <;> exact compact_ne_null (c := '[') (by decide) (by rw [Json.write]) hwritten
    · exact absurd hnumber Bool.false_ne_true
  | object fields =>
    refine iff_of_false ?_ id
    rintro (hwritten | hnumber)
    · cases fields <;> exact compact_ne_null (c := '\x7b') (by decide) (by rw [Json.write]) hwritten
    · exact absurd hnumber Bool.false_ne_true

theorem looseEq_null {v : Json} (hv : v ≠ .null) : looseEq v .null = false := by
  cases v with
  | null => exact absurd rfl hv
  | bool | number | string | array | object => rfl

theorem same_null {v : Json} (hv : v ≠ .null) : v.same .null = false := by
  cases v with
  | null => exact absurd rfl hv
  | bool | number | string | array | object => rfl

/-- A record whose field is taken for null. -/
def FilterRules.TakesForNull (rules : FilterRules) (field : String) (r : Record) : Prop :=
  rules.isBoolean field = false ∧ field ∈ rules.dualFields ∧
    ∃ v, r.get? field = some v ∧ v.StandsForNull

theorem FilterRules.equal_null_iff (rules : FilterRules) (field : String) {v : Json}
    (hv : v ≠ .null) : rules.equal field v .null = true ↔
      rules.isBoolean field = false ∧ field ∈ rules.dualFields ∧ v.StandsForNull := by
  rw [equal]
  cases rules.isBoolean field with
  | true =>
    refine iff_of_false ?_ fun h => absurd h.1.symm Bool.false_ne_true
    rw [if_pos rfl]
    exact ne_true_of_eq_false (same_null hv)
  | false =>
    rw [if_neg Bool.false_ne_true, eq_self_iff_true, true_and, ← List.contains_iff_mem]
    split_ifs with hdual
    · rw [dualEq_null_iff hv, and_iff_right hdual]
    · rw [looseEq_null hv]
      exact iff_of_false Bool.false_ne_true fun h => hdual h.1

theorem FilterRules.holds_eq_null_iff (rules : FilterRules) (field : String) (r : Record) :
    rules.holds r (.compare field .eq .null) = true ↔ rules.TakesForNull field r := by
  have hnone : ((CompareOp.eq == .ne && !Json.isNull .null) : Bool) = false := rfl
  rw [TakesForNull, holds]
  cases hget : r.get? field with
  | none => exact iff_of_false (ne_true_of_eq_false hnone) fun ⟨_, _, _, h, _⟩ => nomatch h
  | some v =>
    by_cases hv : v = .null
    · subst hv
      refine iff_of_false (ne_true_of_eq_false hnone) ?_
      rintro ⟨-, -, _, h, hstands⟩
      obtain rfl := Option.some.inj h
      exact hstands
    · have hcompare : rules.compare field v .eq .null = rules.equal field v .null := rfl
      have hiff := rules.equal_null_iff field hv
      cases v with
      | null => exact absurd rfl hv
      | bool | number | string | array | object =>
        simp only [hcompare, hiff, Option.some.injEq, exists_eq_left']

/-! ## Conditions -/

theorem bindAll_append (b : Binder) (earlier later : List Condition) :
    (Predicate.bindAll b (earlier ++ later)).1 = (Predicate.bindAll b earlier).1 ++
      (Predicate.bindAll (Predicate.bindAll b earlier).2 later).1 := by
  induction earlier generalizing b with
  | nil => rfl
  | cons c earlier ih =>
    cases c with
    | compare field op o => exact congrArg (_ :: ·) (ih (b.bind o).2)
    | isNull field negated => exact congrArg (_ :: ·) (ih b)
    | unread text ps => exact ih (b.skip ps)

/-- An operand that is null: there is no value for it or its value is null. -/
def Binder.IsNull (b : Binder) (o : Operand) : Prop := ((b.bind o).1).getD .null = .null

/-- Some condition compares a field for equality with an operand that is null when its turn comes. -/
def ComparesNull (b : Binder) (conditions : List Condition) (field : String) : Prop :=
  ∃ earlier o later, conditions = earlier ++ .compare field .eq o :: later ∧
    (Predicate.bindAll b earlier).2.IsNull o

theorem mem_predicates_of_comparesNull {b : Binder} {conditions : List Condition} {field : String}
    (h : ComparesNull b conditions field) :
    .compare field .eq .null ∈ (Predicate.bindAll b conditions).1 := by
  obtain ⟨earlier, o, later, rfl, hnull⟩ := h
  rw [bindAll_append, List.mem_append]
  have hhead : Predicate.ofCompare field .eq ((Predicate.bindAll b earlier).2.bind o).1 =
      .compare field .eq .null := congrArg (Predicate.compare field .eq) hnull
  exact Or.inr (hhead ▸ List.mem_cons_self)

theorem takesForNull_of_matches {rules : FilterRules} {b : Binder} {conditions : List Condition}
    {field : String} (h : ComparesNull b conditions field) {r : Record}
    (hmatch : rules.matches r (Predicate.bindAll b conditions).1 = true) :
    rules.TakesForNull field r :=
  (rules.holds_eq_null_iff field r).1
    (List.all_eq_true.1 hmatch _ (mem_predicates_of_comparesNull h))

/-! ## Statements -/

section
variable {rules : Rules} {s : Shelf} {params : Params}

/-- A DELETE that no listed record matches changes nothing. -/
theorem run_executeDelete_of_none {delete : Delete}
    (hnone : ∀ rows, s.scan delete.table = .ok rows →
      matching rules (Predicate.bindAll (.start params) delete.conditions).1 rows = []) :
    ((executeDelete rules delete params).run s).2 = s ∧ ∀ rows, s.scan delete.table = .ok rows →
      ((executeDelete rules delete params).run s).1 = .ok (.affected 0 none) := by
  cases hscan : s.scan delete.table with
  | error e =>
    rw [run_executeDelete_error hscan]
    exact ⟨rfl, fun rows h => nomatch h⟩
  | ok rows =>
    rw [executeDelete, run_bind_of_ok (run_matchingKeys hscan), hnone rows hscan]
    exact ⟨rfl, fun _ _ => rfl⟩

/-- An UPDATE that no listed record matches changes nothing. -/
theorem run_executeUpdate_of_none {update : Update}
    (hnone : ∀ rows, s.scan update.table = .ok rows →
      matching rules (updatePredicates update params) rows = []) :
    ((executeUpdate rules update params).run s).2 = s ∧ ∀ rows, s.scan update.table = .ok rows →
      ((executeUpdate rules update params).run s).1 = .ok (.affected 0 none) := by
  cases htable : Names.isTable update.table with
  | false =>
    obtain ⟨fault, hrun⟩ : ∃ fault, (executeUpdate rules update params).run s =
        (.error (.name fault), s) := run_executeUpdate_of_not_isTable htable
    rw [hrun]
    refine ⟨rfl, fun rows hscan => ?_⟩
    rw [(Shelf.scan_ok hscan).1] at htable
    cases htable
  | true =>
    cases he : s.tableEntries update.table with
    | error cause =>
      rw [run_executeUpdate_of_missing htable he]
      exact ⟨rfl, fun _ _ => rfl⟩
    | ok entries =>
      cases hscan : s.scan update.table with
      | error e =>
        rw [run_executeUpdate_error htable he hscan]
        exact ⟨rfl, fun rows h => nomatch h⟩
      | ok rows =>
        rw [run_executeUpdate_eq htable he, run_bind_of_ok (run_matchingKeys hscan),
          hnone rows hscan]
        exact ⟨rfl, fun _ _ => rfl⟩

theorem matching_of_comparesNull {b : Binder} {conditions : List Condition} {field : String}
    (h : ComparesNull b conditions field) {rows : List (String × Record)}
    (hnone : ∀ row ∈ rows, ¬rules.filter.TakesForNull field row.2) :
    matching rules (Predicate.bindAll b conditions).1 rows = [] := by
  rw [matching, List.filter_eq_nil_iff]
  intro row hrow hmatch
  exact hnone row hrow (takesForNull_of_matches h hmatch)

end

/-- No record that a listing of a table shows has its field taken for null. -/
def NoneTaken (rules : Rules) (s : Shelf) (table field : String) : Prop :=
  ∀ rows, s.scan table = .ok rows → ∀ row ∈ rows, ¬rules.filter.TakesForNull field row.2

/-- What a comparison with null for equality matches, under any rules: the records with a dual field
that is not boolean as well and holds what is taken for null, and no other record. Any conditions that
have such a comparison among them match only such records. So a DELETE or an UPDATE that compares a
field with null, in particular with a placeholder without a param, leaves the shelf as it is where no
listed record has its field taken for null, and reports that it has done nothing. Where there are such
records, a DELETE with no other condition takes away these and no others. -/
theorem null_matches_iff (rules : Rules) (field : String) :
    (∀ r, rules.filter.holds r (.compare field .eq .null) = true ↔
      rules.filter.TakesForNull field r) ∧
    (∀ b conditions, ComparesNull b conditions field → ∀ r,
      rules.filter.matches r (Predicate.bindAll b conditions).1 = true →
        rules.filter.TakesForNull field r) ∧
    ∀ (s : Shelf) (params : Params),
      (∀ delete : Delete, ComparesNull (.start params) delete.conditions field →
        NoneTaken rules s delete.table field →
          let run := (executeDelete rules delete params).run s
          run.2 = s ∧ ∀ rows, s.scan delete.table = .ok rows → run.1 = .ok (.affected 0 none)) ∧
      (∀ update : Update,
        ComparesNull (.startingAt params (bindAssignments update params).2) update.conditions field →
        NoneTaken rules s update.table field →
          let run := (executeUpdate rules update params).run s
          run.2 = s ∧ ∀ rows, s.scan update.table = .ok rows → run.1 = .ok (.affected 0 none)) ∧
      ∀ (table : String) (o : Operand) (rows : List (String × Record)), s.Wellformed →
        (Binder.start params).IsNull o → s.scan table = .ok rows →
        ∃ taken : List (String × Record), taken.Sublist rows ∧
          (∀ row ∈ rows, row ∈ taken ↔ rules.filter.TakesForNull field row.2) ∧
          (executeDelete rules ⟨table, [.compare field .eq o]⟩ params).run s =
            (.ok (.affected taken.length none),
              s.without table (taken.map fun row => fileName row.1)) := by
  refine ⟨rules.filter.holds_eq_null_iff field, fun b conditions h r => takesForNull_of_matches h,
    fun s params => ⟨fun delete h hnone => ?_, fun update h hnone => ?_,
      fun table o rows hs hnull hscan => ?_⟩⟩
  · exact run_executeDelete_of_none fun rows hscan =>
      matching_of_comparesNull h (hnone rows hscan)
  · exact run_executeUpdate_of_none fun rows hscan =>
      matching_of_comparesNull h (hnone rows hscan)
  · have hpredicates : (Predicate.bindAll (.start params) [.compare field .eq o]).1 =
        [.compare field .eq .null] := congrArg ([Predicate.compare field .eq ·]) hnull
    refine ⟨_, List.filter_sublist, fun row hrow => ?_, run_executeDelete hs hscan rfl⟩
    rw [List.mem_filter, and_iff_right hrow, hpredicates, FilterRules.matches, List.all_cons,
      List.all_nil, Bool.and_true]
    exact rules.filter.holds_eq_null_iff field row.2

/-- A note of a user. -/
def userNote (id : ℤ) (h : fits64 id) : Record := [("user_id", .number (.integer id h))]

theorem storable_userNote (id : ℤ) (h : fits64 id) : Storable (userNote id h) :=
  ⟨⟨List.nodup_singleton _, trivial, trivial⟩, show 1 ≤ Json.depthLimit by decide⟩

/-- Takes away the notes of a user. -/
def dropUser : Delete := ⟨"notes", [.compare "user_id" .eq (.placeholder .positional)]⟩

theorem parse_dropUser : parse "DELETE FROM notes WHERE user_id = ?" = .ok (.delete dropUser) := by
  decide +kernel

/-- Without a param nobody's notes are taken away. -/
theorem null_matches_no_note :
    parse "DELETE FROM notes WHERE user_id = ?" = .ok (.delete dropUser) ∧
      (executeDelete Settings.default.rules dropUser .none).run (note (userNote 5 (by decide))) =
        (.ok (.affected 0 none), note (userNote 5 (by decide))) := by
  have hscan := scan_note (storable_userNote 5 (by decide))
  have hnone : NoneTaken Settings.default.rules (note (userNote 5 (by decide))) "notes" "user_id" := by
    intro rows hrows row hrow
    obtain rfl := Except.ok.inj (hscan.symm.trans hrows)
    obtain rfl := List.mem_singleton.1 hrow
    rintro ⟨-, -, v, hv, hstands⟩
    obtain rfl := Option.some.inj hv
    exact absurd hstands (show ¬(5 : ℤ) = 0 by decide)
  obtain ⟨hshelf, hresult⟩ := ((null_matches_iff Settings.default.rules "user_id").2.2
    (note (userNote 5 (by decide))) .none).1 dropUser ⟨[], _, [], rfl, rfl⟩ hnone
  exact ⟨parse_dropUser, Prod.ext (hresult _ hscan) hshelf⟩

/-- Without a param the notes of user 0 are taken away. -/
theorem zero_taken_for_null :
    parse "DELETE FROM notes WHERE user_id = ?" = .ok (.delete dropUser) ∧
      (Predicate.bindAll (.start .none) dropUser.conditions).1 = [.compare "user_id" .eq .null] ∧
      (note (userNote 0 (by decide))).scan "notes" = .ok [("1", userNote 0 (by decide))] ∧
      (executeDelete Settings.default.rules dropUser .none).run (note (userNote 0 (by decide))) =
        (.ok (.affected 1 none), (note (userNote 0 (by decide))).without "notes" ["1.json"]) := by
  have htaken : Settings.default.rules.filter.TakesForNull "user_id" (userNote 0 (by decide)) :=
    ⟨by decide +kernel, by decide +kernel, _, rfl, rfl⟩
  have hstored := storable_userNote 0 (by decide)
  refine ⟨parse_dropUser, rfl, scan_note hstored, run_executeDelete_note hstored ?_⟩
  refine List.all_eq_true.2 fun predicate hpredicate => ?_
  obtain rfl := List.mem_singleton.1 hpredicate
  exact (Settings.default.rules.filter.holds_eq_null_iff _ _).2 htaken

end Query

end RecordShelf

import RecordShelf.Database.Roles
import RecordShelf.Proofs.Number.Rounding
import RecordShelf.Proofs.Shelf.Stored

/-!
# Writing one column of a user

An INSERT of a user's number with one more column goes under the key of the user, unless that number
is zero: zero tells no records apart, and the record goes under a stamp.
-/

namespace RecordShelf

theorem Double.nearestRank_pos {n : ℕ} (hn : 0 < n) : 0 < nearestRank n 1 := by
  obtain ⟨p, hp⟩ : ∃ p, p = 1074 := ⟨1074, rfl⟩
  have hscaled : 2 ^ p ≤ n * perOne := by
    rw [perOne_eq_two_pow hp]
    exact Nat.le_mul_of_pos_left _ hn
  have hlog : p ≤ (n * perOne / 1).log2 := by
    rw [Nat.div_one]
    exact (Nat.le_log2 (Nat.pos_iff_ne_zero.1 ((Nat.two_pow_pos p).trans_le hscaled))).2 hscaled
  have hk : 0 < (n * perOne / 1).log2 - 52 := by omega
  rw [nearestRank]
  exact Nat.add_pos_left (Nat.mul_pos hk (Nat.two_pow_pos 52)) _

theorem Double.same_zero_of_pos {negative : Bool} {rank : ℕ} (bound : rank ≤ top)
    (hrank : 0 < rank) : (signed negative rank bound).same (zero false) = false := by
  have hne : (if negative = true then -(rank : ℤ) else rank) ≠ 0 := by
    split_ifs <;> omega
  simpa [same, position, zero] using hne

/-- Only the integer zero is a double equal to zero. -/
theorem Double.ofInt_same_zero {n : ℤ} : (ofInt n).same (zero false) = decide (n = 0) := by
  by_cases hn : n = 0
  · subst hn
    decide +kernel
  · have hpos : 0 < min (nearestRank n.natAbs 1) top :=
      lt_min (nearestRank_pos (Int.natAbs_pos.2 hn)) (by decide)
    rw [decide_eq_false hn]
    exact same_zero_of_pos _ hpos

theorem Identity.keyOfValue_ofInt64 (n : Int64) :
    keyOfValue (.ofInt64 n) = if n = 0 then none else some (idText n) := by
  have hzero : n.toInt = 0 ↔ n = 0 := ⟨fun h => Int64.toInt_inj.1 h, fun h => by rw [h]; rfl⟩
  rw [Json.ofInt64, keyOfValue, JsonNumber.ofInt64, JsonNumber.toDouble, Double.ofInt_same_zero]
  simp only [hzero, decide_eq_true_eq]
  rfl

namespace Query
open Sql
variable {table column : String} {user : Int64} {value : Json} {s s' : Shelf}

/-- The INSERT of a user with one more column. -/
def upsert (table column : String) : Insert :=
  ⟨table, .columns ["user_id", column]
    (some [.placeholder .positional, .placeholder .positional]), true⟩

/-- The record that it writes. -/
def upserted (column : String) (user : Int64) (value : Json) : Record :=
  [("user_id", .ofInt64 user), (column, value)]

theorem insertRecord_upsert (hcolumn : column ∉ Settings.default.identityFields) :
    insertRecord (upsert table column) (.positional [.ofInt64 user, value]) =
      .ok (upserted column user value) := by
  have hnames : (Named.names (upserted column user value)).Nodup := by
    have hne : ("user_id" : String) ≠ column := by
      rintro rfl
      exact hcolumn (by decide)
    simp [upserted, Named.names, hne]
  have hself := Named.ofEntries_eq_self hnames
  exact congrArg Except.ok hself

theorem resolve_upserted (hcolumn : column ∉ Settings.default.identityFields) :
    Settings.default.rules.identity.resolve table (upserted column user value) =
      if user = 0 then none else some ⟨"user_id", idText user, .ofInt64 user⟩ := by
  have hcandidates : Settings.default.rules.identity.candidates table =
      ["id", "userid", "user_id", "conference_id"] := rfl
  have hid : ∀ field ∈ Settings.default.identityFields, column ≠ field := by
    rintro field hfield rfl
    exact hcolumn hfield
  have hget : ∀ field ∈ Settings.default.identityFields, field ≠ "user_id" →
      Named.get? (upserted column user value) field = none := by
    intro field hfield hne
    simp [upserted, Named.get?, hne.symm, hid field hfield]
  rw [IdentityRules.resolve, hcandidates]
  simp only [List.findSome?_cons, List.findSome?_nil, hget "id" (by decide) (by decide),
    hget "userid" (by decide) (by decide), hget "conference_id" (by decide) (by decide)]
  have huser : Named.get? (upserted column user value) "user_id" = some (.ofInt64 user) := rfl
  simp only [huser, Option.bind_eq_bind, Option.bind_some, Option.bind_none,
    Identity.keyOfValue_ofInt64]
  split_ifs <;> rfl

/-- An INSERT under a key changes at most the record there, and nothing if it fails. -/
theorem agreesOff_of_insertUnder {onDuplicate : Bool} {identity : Identity} {r : Record}
    {outcome : Except Error Result}
    (h : (insertUnder table onDuplicate identity r).run s = (outcome, s')) :
    s.AgreesOff s' (some (table, identity.key)) ∧
      ((∃ e, outcome = .error e) → s.AgreesOff s' none) := by
  have hget : (ShelfM.get table identity.key).run s = (s.get table identity.key, s) :=
    ShelfM.run_read _ s
  rw [insertUnder] at h
  cases hold : s.get table identity.key with
  | error e =>
    rw [hold] at hget
    rw [run_bind_of_error hget] at h
    obtain rfl := (Prod.mk.inj h).2
    exact ⟨.refl s _, fun _ => .refl s none⟩
  | ok old =>
    rw [hold] at hget
    rw [run_bind_of_ok hget] at h
    cases hput : (ShelfM.put table identity.key (mergeRecord onDuplicate old r)).run s with
    | mk stored s₁ =>
      have hagrees := ShelfM.agreesOff_of_put hput
      cases stored with
      | error e =>
        rw [run_bind_of_error hput] at h
        obtain rfl := (Prod.mk.inj h).2
        exact ⟨hagrees.1, fun _ => hagrees.2 ⟨e, rfl⟩⟩
      | ok _ =>
        rw [run_bind_of_ok hput] at h
        obtain ⟨rfl, rfl⟩ := Prod.mk.inj h
        exact ⟨hagrees.1, fun ⟨e, he⟩ => absurd he (by simp)⟩

/-- An INSERT of a user other than zero changes at most the record under the user's key, and nothing
if it fails. -/
theorem agreesOff_of_executeInsert (hcolumn : column ∉ Settings.default.identityFields)
    (hauto : s.isAutoIncrement table = false) (huser : user ≠ 0) {stamp : ℕ}
    {outcome : Except Error Result}
    (h : (executeInsert Settings.default.rules stamp (upsert table column)
      (.positional [.ofInt64 user, value])).run s = (outcome, s')) :
    s.AgreesOff s' (some (table, idText user)) ∧
      ((∃ e, outcome = .error e) → s.AgreesOff s' none) := by
  have hrecord : (ShelfM.read fun _ => insertRecord (upsert table column)
      (.positional [.ofInt64 user, value])).run s = (.ok (upserted column user value), s) := by
    rw [ShelfM.run_read, insertRecord_upsert hcolumn]
  have hfull : (upserted column user value).isEmpty = false := rfl
  have htable : (upsert table column).table = table := rfl
  have hmerge : (upsert table column).onDuplicate = true := rfl
  rw [executeInsert, run_bind_of_ok hrecord] at h
  simp only [hfull, Bool.false_eq_true, if_false] at h
  rw [run_bind_of_ok (ShelfM.run_getThe s)] at h
  simp only [htable, hmerge, hauto, Bool.false_eq_true, if_false, resolve_upserted hcolumn,
    if_neg huser] at h
  exact agreesOff_of_insertUnder h

end Query

end RecordShelf

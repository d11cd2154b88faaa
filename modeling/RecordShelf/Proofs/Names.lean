import Mathlib.Tactic.ByContra
import RecordShelf.Names
import RecordShelf.Proofs.Number.Digits
import RecordShelf.Shelf.Node
import RecordShelf.Text.Alphanumeric

/-!
# Numbers as names

A number that is written out is a valid key, and it makes a valid table name with a prefix that no
device has.
-/

namespace RecordShelf

theorem utf8ByteSize_ofList_le (cs : List Char) :
    (String.ofList cs).utf8ByteSize ≤ 4 * cs.length := by
  induction cs with
  | nil => exact Nat.le_refl 0
  | cons c cs ih =>
    rw [String.ofList_cons, String.utf8ByteSize_append, String.utf8ByteSize_singleton, List.length_cons]
    have hc := c.utf8Size_le_four
    omega

theorem isDigit_of_mem_digits {n : ℕ} : ∀ c ∈ decimalDigits n, c.isDigit = true :=
  fun _ hc => isDigit_of_mem_decimalDigits hc

theorem length_decimalDigits_le {n : ℕ} (hn : n < 2 ^ 64) : (decimalDigits n).length ≤ 20 := by
  by_contra hlong
  have hpos : 0 < n := by
    by_contra hzero
    rw [Nat.eq_zero_of_not_pos hzero] at hlong
    exact hlong (by decide)
  have hle := pow_length_decimalDigits_le hpos
  have hpow : 10 ^ 20 ≤ 10 ^ ((decimalDigits n).length - 1) :=
    Nat.pow_le_pow_right (by decide) (by omega)
  omega

theorem length_digits_le (n : Int64) : (decimalDigits n.toInt.natAbs).length ≤ 20 := by
  have hlow := n.le_toInt
  have hhigh := n.toInt_lt
  exact length_decimalDigits_le (by omega)

namespace Names

theorem problem?_eq_none {kind : NameKind} {value : String} (hempty : value.isEmpty = false)
    (hsize : value.utf8ByteSize ≤ maxLength)
    (htraversal : kind = .key → hasTraversal value.toList = false)
    (hall : value.toList.all (allows kind) = true)
    (hdevice : devices.contains (String.ofList (value.toList.map Char.toLower)) = false) :
    problem? kind value = none := by
  have hstays : ¬(kind = .key ∧ hasTraversal value.toList = true) := by
    rintro ⟨hkind, htrue⟩
    rw [htraversal hkind] at htrue
    exact absurd htrue (by decide)
  rw [problem?, if_neg (by simp [hempty]), if_neg (Nat.not_lt.2 hsize), if_neg hstays,
    if_neg (by simp [hall]), if_neg (by simp only [hdevice, Bool.false_eq_true, not_false_eq_true])]

/-- Every device has a letter and none an underscore. -/
theorem devices_letter : ∀ device ∈ devices,
    (∃ c ∈ device.toList, c.isDigit = false ∧ c ≠ '-') ∧ '_' ∉ device.toList := by
  have hall : devices.all (fun device => device.toList.any (fun c => !c.isDigit && c != '-') &&
      !device.toList.contains '_') = true := by
    decide +kernel
  intro device hdevice
  have hboth := List.all_eq_true.1 hall device hdevice
  rw [Bool.and_eq_true, List.any_eq_true] at hboth
  simpa using hboth

theorem devices_contains_eq_false {cs : List Char}
    (h : ∀ device ∈ devices, device.toList ≠ cs.map Char.toLower) :
    devices.contains (String.ofList (cs.map Char.toLower)) = false := by
  rw [List.contains_eq_mem, decide_eq_false_iff_not]
  intro hmem
  exact h _ hmem String.toList_ofList

theorem hasTraversal_eq_false {cs : List Char} (h : ∀ c ∈ cs, c.isDigit = true ∨ c = '-') :
    hasTraversal cs = false := by
  induction cs with
  | nil => rfl
  | cons c cs ih =>
    obtain ⟨hc, hcs⟩ := List.forall_mem_cons.1 h
    have hdot : c ≠ '.' := by rintro rfl; exact absurd hc (by decide)
    have hslash : c ≠ '/' := by rintro rfl; exact absurd hc (by decide)
    have hback : c ≠ '\\' := by rintro rfl; exact absurd hc (by decide)
    rw [hasTraversal, ih hcs]
    · simp [hslash, hback]
    · exact fun _ hc => absurd hc hdot

/-- Digits and hyphens alone make a key: no device is written with them. -/
theorem isKey_of_digits_or_hyphens {cs : List Char} (hne : cs ≠ [])
    (hcs : ∀ c ∈ cs, c.isDigit = true ∨ c = '-')
    (hsize : (String.ofList cs).utf8ByteSize ≤ maxLength) : isKey (String.ofList cs) = true := by
  have hlower : cs.map Char.toLower = cs := by
    refine (List.map_congr_left fun c hc => ?_).trans (List.map_id' cs)
    rcases hcs c hc with hdigit | rfl
    · exact Text.toLower_of_isDigit hdigit
    · rfl
  have hnone : problem? .key (String.ofList cs) = none := by
    refine problem?_eq_none (by simpa using hne) hsize (fun _ => ?_) ?_ ?_
    · rw [String.toList_ofList]
      exact hasTraversal_eq_false hcs
    · rw [String.toList_ofList, List.all_eq_true]
      intro c hc
      rcases hcs c hc with hdigit | rfl
      · simp [allows, Char.isAlphanum, hdigit]
      · rfl
    · refine devices_contains_eq_false fun device hdevice hsame => ?_
      obtain ⟨⟨c, hc, hletter, hhyphen⟩, -⟩ := devices_letter device hdevice
      rw [hsame, String.toList_ofList, hlower] at hc
      rcases hcs c hc with hdigit | heq
      · rw [hdigit] at hletter
        exact absurd hletter (by decide)
      · exact hhyphen heq
  rw [isKey, hnone]
  rfl

theorem isKey_of_digits {ds : List Char} (hne : ds ≠ []) (hds : ∀ c ∈ ds, c.isDigit = true)
    (hsize : (String.ofList ds).utf8ByteSize ≤ maxLength) : isKey (String.ofList ds) = true :=
  isKey_of_digits_or_hyphens hne (fun c hc => .inl (hds c hc)) hsize

/-- Every number of a counter is a key when it is written out. -/
theorem isKey_decimalInt (n : Int64) : isKey (String.ofList (decimalInt n.toInt)) = true := by
  have hlength := length_digits_le n
  have hsize := utf8ByteSize_ofList_le (decimalInt n.toInt)
  have hmax : maxLength = 255 := rfl
  rw [decimalInt] at hsize ⊢
  split_ifs at hsize ⊢ with hneg
  · refine isKey_of_digits_or_hyphens (List.cons_ne_nil _ _) (fun c hc => ?_) ?_
    · rcases List.mem_cons.1 hc with rfl | hc
      · exact .inr rfl
      · exact .inl (isDigit_of_mem_digits c hc)
    · rw [List.length_cons] at hsize
      omega
  · exact isKey_of_digits (decimalDigits_ne_nil _) isDigit_of_mem_digits (by omega)

theorem isKey_decimalDigits {n : ℕ} (hn : n < 2 ^ 64) :
    isKey (String.ofList (decimalDigits n)) = true := by
  refine isKey_of_digits (decimalDigits_ne_nil n) isDigit_of_mem_digits ?_
  have hsize := utf8ByteSize_ofList_le (decimalDigits n)
  have hlength := length_decimalDigits_le hn
  have hmax : maxLength = 255 := rfl
  omega

/-- A prefix with an underscore and a number make a name for a table. -/
theorem isTable_append {pre : String} {ds : List Char} (hpre : pre.toList.all (allows .table) = true)
    (hunderscore : '_' ∈ pre.toList) (hds : ∀ c ∈ ds, c.isDigit = true)
    (hsize : pre.utf8ByteSize + 4 * ds.length ≤ maxLength) :
    isTable (pre ++ String.ofList ds) = true := by
  have hnone : problem? .table (pre ++ String.ofList ds) = none := by
    refine problem?_eq_none ?_ ?_ (fun hkind => absurd hkind (by decide)) ?_ ?_
    · rw [Bool.eq_false_iff, Ne, String.isEmpty_iff]
      intro hempty
      have hlist := congrArg String.toList hempty
      rw [String.toList_append] at hlist
      rw [(List.append_eq_nil_iff.1 hlist).1] at hunderscore
      exact absurd hunderscore List.not_mem_nil
    · have hle := utf8ByteSize_ofList_le ds
      rw [String.utf8ByteSize_append]
      omega
    · rw [String.toList_append, String.toList_ofList, List.all_append, hpre, Bool.true_and,
        List.all_eq_true]
      intro c hc
      simp [allows, Char.isAlphanum, hds c hc]
    · refine devices_contains_eq_false fun device hdevice hsame => ?_
      obtain ⟨-, hunmarked⟩ := devices_letter device hdevice
      rw [hsame, String.toList_append] at hunmarked
      exact hunmarked (List.mem_map.2 ⟨'_', List.mem_append_left _ hunderscore, rfl⟩)
  rw [isTable, hnone]
  rfl

theorem all_of_isTable {value : String} (h : isTable value = true) :
    value.toList.all (allows .table) = true := by
  by_contra hall
  have hnone : problem? .table value = none := Option.isNone_iff_eq_none.1 h
  unfold problem? at hnone
  split_ifs at hnone
  simp_all

end Names

end RecordShelf

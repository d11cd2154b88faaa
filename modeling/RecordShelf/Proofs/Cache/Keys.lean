import RecordShelf.Cache.Namespace
import RecordShelf.Proofs.Number.Digits

/-!
# Names of cached values

Numbers are told apart by their texts, and pairs of numbers by the names that join the two texts: a
number has no underscore in its text. Records behind values of different namespaces have names that
begin differently.
-/

namespace RecordShelf

theorem not_mem_decimalDigits {n : ℕ} {c : Char} (hc : c.isDigit = false) :
    c ∉ decimalDigits n := by
  intro hmem
  rw [isDigit_of_mem_decimalDigits hmem] at hc
  exact absurd hc (by decide)

theorem decimalInt_injective {a b : ℤ} (h : decimalInt a = decimalInt b) : a = b := by
  have habs : decimalDigits a.natAbs = decimalDigits b.natAbs → a.natAbs = b.natAbs := fun heq => by
    rw [← ofDecimalDigits_decimalDigits a.natAbs, heq, ofDecimalDigits_decimalDigits]
  have hminus : ∀ (n : ℕ) (ds : List Char), '-' :: ds ≠ decimalDigits n := fun n ds heq =>
    not_mem_decimalDigits (by decide) (heq ▸ List.mem_cons_self)
  unfold decimalInt at h
  split_ifs at h with ha hb
  · have := habs (List.cons.inj h).2
    omega
  · exact absurd h (hminus _ _)
  · exact absurd h.symm (hminus _ _)
  · have := habs h
    omega

theorem underscore_not_mem_decimalInt (n : ℤ) : '_' ∉ decimalInt n := by
  unfold decimalInt
  split_ifs
  · rw [List.mem_cons, not_or]
    exact ⟨by decide, not_mem_decimalDigits (by decide)⟩
  · exact not_mem_decimalDigits (by decide)

namespace CacheKey

theorem ofInt_injective {a b : ℤ} (h : ofInt a = ofInt b) : a = b :=
  decimalInt_injective (String.ofList_injective h)

theorem toList_ofPair (a b : ℤ) : (ofPair a b).toList = decimalInt a ++ '_' :: decimalInt b := by
  have hjoin : ofPair a b = ofInt a ++ "_" ++ ofInt b := rfl
  simp [hjoin, ofInt]

theorem ofPair_injective {a b c d : ℤ} (h : ofPair a b = ofPair c d) : a = c ∧ b = d := by
  have hlist := congrArg String.toList h
  rw [toList_ofPair, toList_ofPair, List.append_cons_inj_of_notMem
    (underscore_not_mem_decimalInt a) (underscore_not_mem_decimalInt b)] at hlist
  exact ⟨decimalInt_injective hlist.1, decimalInt_injective hlist.2.2⟩

theorem ofPair_toInt_inj {a b c d : Int64} :
    ofPair a.toInt b.toInt = ofPair c.toInt d.toInt ↔ a = c ∧ b = d := by
  constructor
  · intro h
    obtain ⟨ha, hb⟩ := ofPair_injective h
    exact ⟨Int64.toInt_inj.1 ha, Int64.toInt_inj.1 hb⟩
  · rintro ⟨rfl, rfl⟩
    rfl

/-- Only the key of a pair has an underscore. -/
theorem ofInt_ne_ofPair (n a b : ℤ) : ofInt n ≠ ofPair a b := by
  intro h
  have hlist := congrArg String.toList h
  rw [ofInt, String.toList_ofList, toList_ofPair] at hlist
  refine underscore_not_mem_decimalInt n ?_
  rw [hlist]
  exact List.mem_append_right _ List.mem_cons_self

end CacheKey

namespace Invalidation
variable {i j : Invalidation} {name : String}

theorem recordName_eq_some_iff : i.recordName? = some name ↔
    (i.space = .userRoles ∧ name = "role_" ++ i.key) ∨
      (i.space = .chatSettings ∧ name = "settings_" ++ i.key) := by
  obtain ⟨space, key⟩ := i
  cases space <;> simp [recordName?, eq_comm]

/-- A name in the cache of records tells both the namespace and the key. -/
theorem eq_of_recordName (hi : i.recordName? = some name) (hj : j.recordName? = some name) :
    i = j := by
  have hapart : ∀ k k' : String, "role_" ++ k ≠ "settings_" ++ k' := by
    intro k k' h
    have hfirst := congrArg (fun t : String => t.toList.head?) h
    simp at hfirst
  have hsame : ∀ {pre : String}, i.space = j.space → name = pre ++ i.key → name = pre ++ j.key →
      i = j := by
    intro pre hspace hname hname'
    obtain ⟨space, key⟩ := i
    obtain ⟨space', key'⟩ := j
    obtain rfl : space = space' := hspace
    obtain rfl : key = key' := (String.append_right_inj pre).1 (hname.symm.trans hname')
    rfl
  rcases recordName_eq_some_iff.1 hi with ⟨hspace, hname⟩ | ⟨hspace, hname⟩ <;>
    rcases recordName_eq_some_iff.1 hj with ⟨hspace', hname'⟩ | ⟨hspace', hname'⟩
  · exact hsame (hspace.trans hspace'.symm) hname hname'
  · exact absurd (hname.symm.trans hname') (hapart _ _)
  · exact absurd (hname'.symm.trans hname) (hapart _ _)
  · exact hsame (hspace.trans hspace'.symm) hname hname'

end Invalidation

end RecordShelf

import RecordShelf.Named
import Mathlib.Data.List.Nodup

/-!
# Lists of named entries

Entries without a repeated name are rebuilt unchanged, and inserting and erasing keep them so.
-/

namespace RecordShelf.Named
variable {α : Type}

theorem insert_eq_append {r : Named α} {name : String} {value : α} (h : name ∉ r.names) :
    r.insert name value = r ++ [(name, value)] := by
  induction r with
  | nil => rfl
  | cons entry r ih =>
    obtain ⟨k, v⟩ := entry
    rw [names, List.map_cons, List.mem_cons, not_or] at h
    have hk : ¬k = name := fun hk => h.1 hk.symm
    simp only [insert, hk, if_false, List.cons_append, List.cons.injEq, true_and]
    exact ih h.2

theorem extend_eq_append {r s : Named α} (h : (names (r ++ s)).Nodup) : r.extend s = r ++ s := by
  induction s generalizing r with
  | nil => simp [extend]
  | cons entry s ih =>
    obtain ⟨k, v⟩ := entry
    have happend : r ++ (k, v) :: s = r ++ [(k, v)] ++ s := by simp
    have hk : k ∉ r.names := by
      rw [names, List.map_append, List.nodup_append] at h
      exact fun hmem => h.2.2 k hmem k (by simp) rfl
    rw [happend] at h ⊢
    rw [← ih h, extend, List.foldl_cons, insert_eq_append hk]
    rfl

theorem ofEntries_eq_self {r : Named α} (h : r.names.Nodup) : ofEntries r = r :=
  extend_eq_append (r := []) h

theorem nodup_names_insert {r : Named α} (h : r.names.Nodup) (name : String) (value : α) :
    (r.insert name value).names.Nodup := by
  rw [names_insert]
  split_ifs with hmem
  · exact h
  · exact List.nodup_append.2 ⟨h, List.nodup_singleton _, by
      intro a ha b hb
      rw [List.mem_singleton.1 hb]
      exact fun hab => hmem (hab ▸ ha)⟩

theorem nodup_names_extend {r : Named α} (h : r.names.Nodup) (s : Named α) :
    (r.extend s).names.Nodup := by
  induction s generalizing r with
  | nil => exact h
  | cons entry s ih => exact ih (nodup_names_insert h entry.1 entry.2)

theorem nodup_names_ofEntries (entries : List (String × α)) : (ofEntries entries).names.Nodup :=
  nodup_names_extend (r := []) List.nodup_nil entries

theorem mem_insert {r : Named α} {name : String} {value : α} {entry : String × α}
    (h : entry ∈ r.insert name value) : entry = (name, value) ∨ entry ∈ r := by
  induction r with
  | nil => exact Or.inl (List.mem_singleton.1 h)
  | cons first r ih =>
    obtain ⟨k, v⟩ := first
    by_cases hk : k = name
    · simp only [insert, hk, if_true, List.mem_cons] at h
      rcases h with h | h
      · exact Or.inl h
      · exact Or.inr (List.mem_cons_of_mem _ h)
    · simp only [insert, hk, if_false, List.mem_cons] at h
      rcases h with h | h
      · exact Or.inr (List.mem_cons.2 (Or.inl h))
      · exact (ih h).imp_right (List.mem_cons_of_mem _)

theorem mem_extend {r s : Named α} {entry : String × α} (h : entry ∈ r.extend s) :
    entry ∈ r ∨ entry ∈ s := by
  induction s generalizing r with
  | nil => exact Or.inl h
  | cons first s ih =>
    rcases ih h with h | h
    · rcases mem_insert h with h | h
      · exact Or.inr (List.mem_cons.2 (Or.inl h))
      · exact Or.inl h
    · exact Or.inr (List.mem_cons_of_mem _ h)

theorem mem_ofEntries {entries : List (String × α)} {entry : String × α}
    (h : entry ∈ ofEntries entries) : entry ∈ entries :=
  (mem_extend (r := []) h).resolve_left List.not_mem_nil

theorem get?_of_mem {r : Named α} (h : r.names.Nodup) {name : String} {value : α}
    (hmem : (name, value) ∈ r) : r.get? name = some value := by
  induction r with
  | nil => exact absurd hmem List.not_mem_nil
  | cons entry r ih =>
    obtain ⟨k, v⟩ := entry
    rw [names, List.map_cons, List.nodup_cons] at h
    rcases List.mem_cons.1 hmem with heq | hmem
    · cases heq
      simp [get?]
    · have hk : ¬k = name := by
        rintro rfl
        exact h.1 (List.mem_map.2 ⟨_, hmem, rfl⟩)
      simp only [get?, hk, if_false]
      exact ih h.2 hmem

theorem insert_eq_self {r : Named α} {name : String} {value : α} (h : r.get? name = some value) :
    r.insert name value = r := by
  induction r with
  | nil => exact absurd h (by simp [get?])
  | cons entry r ih =>
    obtain ⟨k, v⟩ := entry
    by_cases hk : k = name
    · simp_all [get?, insert]
    · simp_all [get?, insert]

theorem insert_insert_self (r : Named α) (name : String) (first second : α) :
    (r.insert name first).insert name second = r.insert name second := by
  induction r with
  | nil => simp [insert]
  | cons entry r ih =>
    obtain ⟨k, v⟩ := entry
    by_cases hk : k = name
    · simp [insert, hk]
    · simp [insert, hk, ih]

theorem erase_insert_self (r : Named α) (name : String) (value : α) :
    (r.insert name value).erase name = r.erase name := by
  induction r with
  | nil => simp [insert, erase]
  | cons entry r ih =>
    obtain ⟨k, v⟩ := entry
    by_cases hk : k = name
    · simp [insert, erase, hk]
    · simp [insert, erase, hk, ih]

theorem erase_eq_filter {r : Named α} (h : r.names.Nodup) (name : String) :
    r.erase name = r.filter fun entry => entry.1 ≠ name := by
  induction r with
  | nil => rfl
  | cons entry r ih =>
    obtain ⟨k, v⟩ := entry
    rw [names, List.map_cons, List.nodup_cons] at h
    by_cases hk : k = name
    · have hall : ∀ entry ∈ r, decide (entry.1 ≠ name) = true := by
        intro entry hmem
        rw [decide_eq_true_eq]
        rintro rfl
        exact h.1 (hk ▸ List.mem_map.2 ⟨entry, hmem, rfl⟩)
      rw [erase, if_pos hk, List.filter_cons_of_neg (by simpa using hk), List.filter_eq_self.2 hall]
    · rw [erase, if_neg hk, List.filter_cons_of_pos (by simpa using hk), ih h.2]

theorem get?_filter (r : Named α) {p : String → Bool} {name : String} (h : p name = true) :
    get? (r.filter fun entry => p entry.1) name = r.get? name := by
  induction r with
  | nil => rfl
  | cons entry r ih =>
    obtain ⟨k, v⟩ := entry
    by_cases hk : k = name
    · subst hk
      simp [h, get?]
    · cases hkeep : p k with
      | false => simp [hkeep, get?, hk, ih]
      | true => simp [hkeep, get?, hk, ih]

theorem nodup_names_erase {r : Named α} (h : r.names.Nodup) (name : String) :
    (r.erase name).names.Nodup := by
  rw [erase_eq_filter h]
  exact (List.filter_sublist.map _).nodup h

theorem get?_erase_self {r : Named α} (h : r.names.Nodup) (name : String) :
    (r.erase name).get? name = none := by
  rw [get?_eq_none_iff, erase_eq_filter h, names, List.mem_map]
  rintro ⟨entry, hentry, hname⟩
  exact of_decide_eq_true (List.mem_filter.1 hentry).2 hname

theorem erase_sublist (r : Named α) (name : String) : (r.erase name).Sublist r := by
  induction r with
  | nil => exact List.Sublist.refl _
  | cons entry r ih =>
    obtain ⟨k, v⟩ := entry
    by_cases hk : k = name
    · rw [erase, if_pos hk]
      exact List.sublist_cons_self _ _
    · rw [erase, if_neg hk]
      exact ih.cons_cons _

theorem mem_of_get? {r : Named α} {name : String} {value : α} (h : r.get? name = some value) :
    (name, value) ∈ r := by
  induction r with
  | nil => exact absurd h (by simp [get?])
  | cons entry r ih =>
    obtain ⟨k, v⟩ := entry
    rw [get?] at h
    split_ifs at h with hk
    · cases h
      rw [hk]
      exact List.mem_cons_self
    · exact List.mem_cons_of_mem _ (ih h)

end RecordShelf.Named

/-!
# Named entries in order

A list of named things, such as the fields of a record or the entries of a directory. `insert`
overwrites an entry in its place or appends it, so that a list built by it has no name twice.
-/

namespace RecordShelf

abbrev Named (α : Type) := List (String × α)

namespace Named
variable {α : Type}

def get? : Named α → String → Option α
  | [], _ => none
  | (k, v) :: r, name => if k = name then some v else get? r name

def insert : Named α → String → α → Named α
  | [], name, value => [(name, value)]
  | (k, v) :: r, name, value =>
    if k = name then (k, value) :: r else (k, v) :: insert r name value

def erase : Named α → String → Named α
  | [], _ => []
  | (k, v) :: r, name => if k = name then r else (k, v) :: erase r name

/-- Every entry of `s` written over `r`. -/
def extend (r s : Named α) : Named α :=
  s.foldl (fun r entry => r.insert entry.1 entry.2) r

/-- Entries in order of first appearance, each with its last value. -/
def ofEntries (entries : List (String × α)) : Named α :=
  extend [] entries

def names (r : Named α) : List String := r.map (·.1)

@[simp] theorem get?_insert_self (r : Named α) (name : String) (value : α) :
    (r.insert name value).get? name = some value := by
  induction r with
  | nil => simp [insert, get?]
  | cons entry r ih =>
    obtain ⟨k, v⟩ := entry
    by_cases h : k = name <;> simp [insert, get?, h, ih]

theorem get?_insert_of_ne (r : Named α) {name other : String} (value : α) (h : other ≠ name) :
    (r.insert name value).get? other = r.get? other := by
  induction r with
  | nil => simp [insert, get?, h.symm]
  | cons entry r ih =>
    obtain ⟨k, v⟩ := entry
    by_cases hk : k = name
    · subst hk
      simp [insert, get?, h.symm]
    · by_cases ho : k = other
      · subst ho
        simp [insert, get?, h]
      · simp [insert, get?, hk, ho, ih]

theorem get?_erase_of_ne (r : Named α) {name other : String} (h : other ≠ name) :
    (r.erase name).get? other = r.get? other := by
  induction r with
  | nil => rfl
  | cons entry r ih =>
    obtain ⟨k, v⟩ := entry
    by_cases hk : k = name
    · subst hk
      simp [erase, get?, h.symm]
    · by_cases ho : k = other
      · subst ho
        simp [erase, get?, h]
      · simp [erase, get?, hk, ho, ih]

theorem names_insert (r : Named α) (name : String) (value : α) :
    (r.insert name value).names = if name ∈ r.names then r.names else r.names ++ [name] := by
  induction r with
  | nil => simp [insert, names]
  | cons entry r ih =>
    obtain ⟨k, v⟩ := entry
    by_cases hk : k = name
    · simp [insert, names, hk]
    · have hn : name ≠ k := Ne.symm hk
      by_cases hm : name ∈ List.map (·.1) r <;> simp_all [insert, names]

theorem get?_eq_none_iff {r : Named α} {name : String} : r.get? name = none ↔ name ∉ r.names := by
  induction r with
  | nil => simp [get?, names]
  | cons entry r ih =>
    obtain ⟨k, v⟩ := entry
    by_cases hk : k = name
    · simp [get?, names, hk]
    · have hn : name ≠ k := Ne.symm hk
      simp_all [get?, names]

end Named

end RecordShelf

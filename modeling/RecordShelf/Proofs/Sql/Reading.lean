import Mathlib.Tactic.ByContra
import Mathlib.Tactic.SplitIfs
import RecordShelf.Sql.Parse

/-!
# Reading what is written

What a reader takes from a text that starts with what it looks for, whatever follows.
-/

namespace RecordShelf.Sql
open Text

namespace Reader
variable {α β : Type} {reader : Reader α} {f : α → Reader β} {a : α} {cs rest : List Char}

theorem bind_of_ok (h : reader cs = .ok (a, rest)) : (reader >>= f) cs = f a rest := by
  change (reader cs >>= fun result => f result.1 result.2) = _
  rw [h]
  rfl

theorem bind_of_error {place : List Char} (h : reader cs = .error place) :
    (reader >>= f) cs = .error place := by
  change (reader cs >>= fun result => f result.1 result.2) = _
  rw [h]
  rfl

theorem either_of_ok {second : Reader α} (h : reader cs = .ok (a, rest)) :
    either reader second cs = .ok (a, rest) := by
  rw [either, h]

theorem either_of_error {second : Reader α} {place : List Char} (h : reader cs = .error place) :
    either reader second cs = second cs := by
  rw [either, h]

/-- A run of characters stops where the next one does not belong to it. -/
theorem takeWhile_append {p : Char → Bool} {word : List Char} (hword : ∀ c ∈ word, p c = true)
    (hrest : ∀ c ∈ rest.head?, p c = false) : (word ++ rest).takeWhile p = word := by
  rw [List.takeWhile_append_of_pos hword]
  cases rest with
  | nil => rw [List.takeWhile_nil, List.append_nil]
  | cons c rest => rw [List.takeWhile_cons_of_neg (by simp [hrest c rfl]), List.append_nil]

theorem dropWhile_append {p : Char → Bool} {word : List Char} (hword : ∀ c ∈ word, p c = true)
    (hrest : ∀ c ∈ rest.head?, p c = false) : (word ++ rest).dropWhile p = rest := by
  rw [List.dropWhile_append_of_pos hword]
  cases rest with
  | nil => rfl
  | cons c rest => rw [List.dropWhile_cons_of_neg (by simp [hrest c rfl])]

theorem run_append {p : Char → Bool} {word : List Char} (hword : ∀ c ∈ word, p c = true)
    (hrest : ∀ c ∈ rest.head?, p c = false) : run p (word ++ rest) = .ok (word, rest) := by
  rw [run, takeWhile_append hword hrest, dropWhile_append hword hrest]

theorem run1_append {p : Char → Bool} {word : List Char} (hne : word ≠ [])
    (hword : ∀ c ∈ word, p c = true) (hrest : ∀ c ∈ rest.head?, p c = false) :
    run1 p (word ++ rest) = .ok (word, rest) := by
  rw [run1, takeWhile_append hword hrest, dropWhile_append hword hrest,
    if_neg (by simp [hne])]

theorem dropWord?_append {word written : List Char} (h : dropWord? word written = some [])
    (rest : List Char) : dropWord? word (written ++ rest) = some rest := by
  induction word generalizing written with
  | nil =>
    obtain rfl := Option.some.inj h
    rfl
  | cons w word ih =>
    cases written with
    | nil => exact absurd h (by simp [dropWord?])
    | cons c written =>
      rw [dropWord?] at h
      split_ifs at h with hc
      rw [List.cons_append, dropWord?, if_pos hc]
      exact ih h

theorem keyword_append {word : String} {written : List Char}
    (h : dropWord? word.toList written = some []) (hrest : ∀ c ∈ rest.head?, isWord c = false) :
    keyword word (written ++ rest) = .ok ((), rest) := by
  rw [keyword, dropWord?_append h]
  cases rest with
  | nil => rfl
  | cons c rest => simp [hrest c rfl]

/-- What holds of the first character of a text. -/
theorem forall_head?_cons {p : Char → Prop} {c : Char} (hc : p c) (cs : List Char) :
    ∀ d ∈ (c :: cs).head?, p d := by
  intro d hd
  obtain rfl := Option.some.inj hd
  exact hc

theorem keyword_cons {word : String} {written : List Char} {c : Char}
    (h : dropWord? word.toList written = some []) (hc : isWord c = false) (rest : List Char) :
    keyword word (written ++ c :: rest) = .ok ((), c :: rest) :=
  keyword_append h (forall_head?_cons hc rest)

theorem keyword_of_none {word : String} (h : dropWord? word.toList cs = none) :
    keyword word cs = .error cs := by
  rw [keyword, h]

/-! ## Names -/

end Reader

/-- A name that reading leaves as it is: letters of ASCII without capitals, digits and
underscores. -/
structure Plain (name : List Char) : Prop where
  nonempty : name ≠ []
  word : ∀ c ∈ name, isAsciiWord c = true
  small : ∀ c ∈ name, c.isUpper = false

theorem Plain.of_all {name : List Char} (hne : name ≠ [])
    (h : name.all (fun c => isAsciiWord c && !c.isUpper) = true) : Plain name := by
  have hboth : ∀ c ∈ name, isAsciiWord c = true ∧ c.isUpper = false := by
    simpa using h
  exact ⟨hne, fun c hc => (hboth c hc).1, fun c hc => (hboth c hc).2⟩

theorem Plain.append {name more : List Char} (h : Plain name) (hword : ∀ c ∈ more, isAsciiWord c = true)
    (hsmall : ∀ c ∈ more, c.isUpper = false) : Plain (name ++ more) := by
  refine ⟨by simp [h.nonempty], fun c hc => ?_, fun c hc => ?_⟩
  · exact (List.mem_append.1 hc).elim (h.word c) (hword c)
  · exact (List.mem_append.1 hc).elim (h.small c) (hsmall c)

theorem toNat_lt_of_isAsciiWord {c : Char} (h : isAsciiWord c = true) : c.toNat < 128 := by
  rw [isAsciiWord, Bool.or_eq_true, beq_iff_eq] at h
  rcases h with h | rfl
  · exact toNat_lt_of_isAlphanum h
  · decide

theorem isWhite_of_isAsciiWord {c : Char} (h : isAsciiWord c = true) : isWhite c = false := by
  have hlt := toNat_lt_of_isAsciiWord h
  have hle : 48 ≤ c.toNat := by
    rw [isAsciiWord, Bool.or_eq_true, beq_iff_eq] at h
    rcases h with h | rfl
    · exact (bounds_of_isAlphanum h).1
    · decide
  simp only [isWhite, Bool.or_eq_false_iff, Bool.and_eq_false_iff, decide_eq_false_iff_not,
    beq_eq_false_iff_ne]
  omega

theorem lowerCaseFrom_plain {name : List Char} (hword : ∀ c ∈ name, isAsciiWord c = true)
    (hsmall : ∀ c ∈ name, c.isUpper = false) (before : List Char) :
    lowerCaseFrom before name = name := by
  induction name generalizing before with
  | nil => rfl
  | cons c name ih =>
    obtain ⟨hc, hword⟩ := List.forall_mem_cons.1 hword
    obtain ⟨hcap, hsmall⟩ := List.forall_mem_cons.1 hsmall
    have hascii := toNat_lt_of_isAsciiWord hc
    have hsigma : c ≠ 'Σ' := by
      rintro rfl
      exact absurd hascii (by decide)
    have hdotted : c ≠ 'İ' := by
      rintro rfl
      exact absurd hascii (by decide)
    have hlower : lowerChar c = c := by
      rw [lowerChar, if_pos hascii]
      exact toLower_of_isUpper_eq_false hcap
    rw [lowerCaseFrom, ih hword hsmall]
    simp [hsigma, hdotted, hlower]

theorem Plain.lowerCase {name : List Char} (h : Plain name) : lowerCase name = name :=
  lowerCaseFrom_plain h.word h.small []

namespace Reader
variable {name rest : List Char}

/-- A name in any case is read up to its end and folded to lower case. -/
theorem identifier_word (hne : name ≠ []) (hword : ∀ c ∈ name, isAsciiWord c = true)
    (hrest : ∀ c ∈ rest.head?, isWord c = false) :
    identifier (name ++ rest) = .ok (String.ofList (lowerCase name), rest) := by
  have hbare : bareName (name ++ rest) = .ok (name, rest) :=
    run1_append hne (fun c hc => isWord_of_isAsciiWord (hword c hc)) hrest
  have htick : char '`' (name ++ rest) = .error (name ++ rest) := by
    obtain ⟨c, tail, rfl⟩ := List.exists_cons_of_ne_nil hne
    have hc : c ≠ '`' := by
      rintro rfl
      exact absurd (hword '`' List.mem_cons_self) (by decide)
    simp [char, satisfy, hc]
  have hname : either (do
      let _ ← char '`'
      let name ← bareName
      let _ ← char '`'
      return name) bareName (name ++ rest) = .ok (name, rest) := by
    rw [either_of_error (bind_of_error htick), hbare]
  rw [identifier, bind_of_ok hname]
  rfl

theorem identifier_plain (h : Plain name) (hrest : ∀ c ∈ rest.head?, isWord c = false) :
    identifier (name ++ rest) = .ok (String.ofList name, rest) := by
  rw [identifier_word h.nonempty h.word hrest, h.lowerCase]

theorem tableName_word (hne : name ≠ []) (hword : ∀ c ∈ name, isAsciiWord c = true)
    (hrest : ∀ c ∈ rest.head?, isWord c = false) :
    tableName (' ' :: (name ++ rest)) = .ok (String.ofList (lowerCase name), rest) := by
  have hblanks : blanks ([' '] ++ (name ++ rest)) = .ok ([' '], name ++ rest) := by
    apply run_append (by simp [isSpacing])
    obtain ⟨c, tail, rfl⟩ := List.exists_cons_of_ne_nil hne
    intro d hd
    rw [List.cons_append, List.head?_cons, Option.mem_some_iff] at hd
    subst hd
    by_contra hspacing
    have hc := hword c List.mem_cons_self
    simp only [isSpacing, Bool.not_eq_false, Bool.or_eq_true, beq_iff_eq] at hspacing
    rcases hspacing with ((rfl | rfl) | rfl) | rfl <;> exact absurd hc (by decide)
  rw [tableName]
  exact (bind_of_ok hblanks).trans (identifier_word hne hword hrest)

theorem tableName_plain (h : Plain name) (hrest : ∀ c ∈ rest.head?, isWord c = false) :
    tableName (' ' :: (name ++ rest)) = .ok (String.ofList name, rest) := by
  rw [tableName_word h.nonempty h.word hrest, h.lowerCase]

end Reader

end RecordShelf.Sql

import RecordShelf.Proofs.Sql.TableNames

/-!
# Leading words

The kind of a statement is read off its leading words, and a statement that is read is of that kind.
White space and semicolons at the end of a text neither make nor break these words, so the kind is the
same whether a text is trimmed at its start only or at both ends.
-/

namespace RecordShelf.Sql
open Text

/-- White space and semicolons, which may end a text. -/
def isIdle (c : Char) : Bool := isWhite c || c == ';'

theorem isWord_of_isIdle {c : Char} (hc : isIdle c = true) : isWord c = false := by
  rw [isIdle, Bool.or_eq_true, beq_iff_eq] at hc
  rcases hc with hwhite | rfl
  · exact isWord_of_isWhite hwhite
  · decide

/-- An idle character stands for no letter, whatever the case. -/
theorem ne_toLower_of_isIdle {c w : Char} (hc : isIdle c = true) (hw : w.isAlpha = true) :
    c.toLower ≠ w := by
  rintro rfl
  have halpha : c.isAlpha = true := by
    by_cases hupper : c.isUpper = true
    · exact Bool.or_eq_true_iff.2 (.inl hupper)
    · rwa [toLower_of_isUpper_eq_false (by simpa using hupper)] at hw
  have hword : isWord c = true :=
    isWord_of_isAsciiWord (by simp [isAsciiWord, Char.isAlphanum, halpha])
  rw [isWord_of_isIdle hc] at hword
  exact absurd hword (by decide)

/-! ## Readers in front of idle text -/

/-- The same is read from a text with and without a tail, which what is left has as well, or nothing
is read from either. -/
inductive LeavesTail {α : Type} (tail : List Char) :
    Except (List Char) (α × List Char) → Except (List Char) (α × List Char) → Prop
  | read (a : α) (rest : List Char) : LeavesTail tail (.ok (a, rest ++ tail)) (.ok (a, rest))
  | failed (place place' : List Char) : LeavesTail tail (.error place) (.error place')

namespace Reader

/-- A reader that does not care about idle text behind what it reads. -/
def IgnoresTail {α : Type} (reader : Reader α) : Prop :=
  ∀ cs tail, (∀ c ∈ tail, isIdle c = true) → LeavesTail tail (reader (cs ++ tail)) (reader cs)

variable {α β : Type} {reader second : Reader α} {tail : List Char}

theorem leavesTail_bind {f : α → Reader β} {cs : List Char}
    (h : LeavesTail tail (reader (cs ++ tail)) (reader cs))
    (hf : ∀ a rest, LeavesTail tail (f a (rest ++ tail)) (f a rest)) :
    LeavesTail tail ((reader >>= f) (cs ++ tail)) ((reader >>= f) cs) := by
  generalize hlong : reader (cs ++ tail) = long at h
  generalize hshort : reader cs = short at h
  cases h with
  | read a rest =>
    rw [bind_of_ok hlong, bind_of_ok hshort]
    exact hf a rest
  | failed place place' =>
    rw [bind_of_error hlong, bind_of_error hshort]
    exact .failed place place'

namespace IgnoresTail

theorem pure (a : α) : IgnoresTail (Pure.pure a : Reader α) := fun cs _ _ => .read a cs

theorem bind {f : α → Reader β} (h : IgnoresTail reader) (hf : ∀ a, IgnoresTail (f a)) :
    IgnoresTail (reader >>= f) :=
  fun cs tail htail => leavesTail_bind (h cs tail htail) fun a rest => hf a rest tail htail

theorem either (h : IgnoresTail reader) (hsecond : IgnoresTail second) :
    IgnoresTail (Reader.either reader second) := by
  intro cs tail htail
  have hfirst := h cs tail htail
  rw [Reader.either, Reader.either]
  generalize reader (cs ++ tail) = long at hfirst
  generalize reader cs = short at hfirst
  cases hfirst with
  | read a rest => exact .read a rest
  | failed => exact hsecond cs tail htail

end IgnoresTail

theorem dropWord?_idle {word cs : List Char} (hword : word.all Char.isAlpha = true)
    (htail : ∀ c ∈ tail, isIdle c = true) :
    dropWord? word (cs ++ tail) = (dropWord? word cs).map (· ++ tail) := by
  induction word generalizing cs with
  | nil => rfl
  | cons w word ih =>
    obtain ⟨hw, hword⟩ := Bool.and_eq_true_iff.1 (List.all_cons.symm.trans hword)
    cases cs with
    | nil =>
      cases tail with
      | nil => rfl
      | cons c tail =>
        have hne : c.toLower ≠ w := ne_toLower_of_isIdle (htail c List.mem_cons_self) hw
        rw [List.nil_append, dropWord?, if_neg hne]
        rfl
    | cons c cs =>
      rw [List.cons_append, dropWord?, dropWord?]
      split_ifs
      · exact ih hword
      · rfl

theorem ignoresTail_keyword {word : String} (hword : word.toList.all Char.isAlpha = true) :
    IgnoresTail (keyword word) := by
  intro cs tail htail
  rw [keyword, keyword, dropWord?_idle hword htail]
  cases dropWord? word.toList cs with
  | none => exact .failed _ _
  | some rest =>
    cases rest with
    | nil =>
      cases tail with
      | nil => exact .read () []
      | cons c tail =>
        have hc := isWord_of_isIdle (htail c List.mem_cons_self)
        simp only [Option.map_some, List.nil_append, hc, Bool.false_eq_true, if_false]
        exact .read () []
    | cons c rest =>
      simp only [Option.map_some, List.cons_append]
      split_ifs
      · exact .failed _ _
      · exact .read () (c :: rest)

theorem keyword_idle {word : String} (hword : word.toList.all Char.isAlpha = true)
    (hne : word.toList ≠ []) (htail : ∀ c ∈ tail, isIdle c = true) :
    keyword word tail = .error tail := by
  have hdrop : dropWord? word.toList ([] ++ tail) = none := by
    rw [dropWord?_idle hword htail]
    obtain ⟨w, rest, hcons⟩ := List.exists_cons_of_ne_nil hne
    rw [hcons]
    rfl
  exact keyword_of_none hdrop

/-- Blanks alone care about what follows them, but not with a word behind them, which never starts
in idle text. -/
theorem ignoresTail_blanks_keyword {word : String} (hword : word.toList.all Char.isAlpha = true)
    (hne : word.toList ≠ []) : IgnoresTail (do let _ ← blanks1; keyword word) := by
  intro cs tail htail
  have hfails : ∀ ds : List Char, (∀ c ∈ ds, isIdle c = true) →
      ∃ place, (do let _ ← blanks1; keyword word : Reader Unit) ds = .error place := by
    intro ds hds
    cases hblanks : blanks1 ds with
    | error place => exact ⟨place, bind_of_error hblanks⟩
    | ok result =>
      obtain ⟨_, rest⟩ := result
      have hsplit := (run1_ok hblanks).1
      have hrest : ∀ c ∈ rest, isIdle c = true := fun c hc =>
        hds c (by rw [hsplit]; exact List.mem_append_right _ hc)
      exact ⟨rest, (bind_of_ok hblanks).trans (keyword_idle hword hne hrest)⟩
  by_cases hall : ∀ c ∈ cs, isSpacing c = true
  · have hidle : ∀ c ∈ cs, isIdle c = true := fun c hc => by
      rw [isIdle, isWhite_of_isSpacing (hall c hc), Bool.true_or]
    obtain ⟨long, hlong⟩ := hfails (cs ++ tail) fun c hc =>
      (List.mem_append.1 hc).elim (hidle c) (htail c)
    obtain ⟨short, hshort⟩ := hfails cs hidle
    rw [hlong, hshort]
    exact .failed long short
  · have hdrop : cs.dropWhile isSpacing ≠ [] := fun h => hall (List.dropWhile_eq_nil_iff.1 h)
    have htake : (cs ++ tail).takeWhile isSpacing = cs.takeWhile isSpacing := by
      rw [List.takeWhile_append, if_neg]
      intro hlength
      have htook := (List.takeWhile_prefix isSpacing).eq_of_length hlength
      refine hall fun c hc => ?_
      rw [← htook] at hc
      exact List.mem_takeWhile_imp hc
    have hleft : (cs ++ tail).dropWhile isSpacing = cs.dropWhile isSpacing ++ tail := by
      rw [List.dropWhile_append, if_neg (by simpa using hdrop)]
    have hblanks : LeavesTail tail (blanks1 (cs ++ tail)) (blanks1 cs) := by
      rw [blanks1, run1, run1, htake, hleft]
      split_ifs
      · exact .failed _ _
      · exact .read _ _
    exact leavesTail_bind hblanks fun _ rest => ignoresTail_keyword hword rest tail htail

theorem ignoresTail_twoWords {first last : String} (hfirst : first.toList.all Char.isAlpha = true)
    (hlast : last.toList.all Char.isAlpha = true) (hne : last.toList ≠ []) :
    IgnoresTail (twoWords first last) :=
  .bind (ignoresTail_keyword hfirst) fun _ => ignoresTail_blanks_keyword hlast hne

theorem ignoresTail_leading : IgnoresTail leading :=
  .either (.bind (ignoresTail_twoWords (by decide) (by decide) (by decide)) fun _ => .pure _) <|
  .either (.bind (ignoresTail_keyword (by decide)) fun _ => .pure _) <|
  .either (.bind (ignoresTail_keyword (by decide)) fun _ => .pure _) <|
  .either (.bind (ignoresTail_keyword (by decide)) fun _ => .pure _) <|
  .either (.bind (ignoresTail_twoWords (by decide) (by decide) (by decide)) fun _ => .pure _) <|
  .bind (ignoresTail_twoWords (by decide) (by decide) (by decide)) fun _ => .pure _

end Reader

/-! ## Trimming -/

/-- Behind a text without white space around it and semicolons after it only such characters stand. -/
theorem trimStart_eq_bareText (cs : List Char) :
    ∃ tail, trimStart cs = bareText cs ++ tail ∧ ∀ c ∈ tail, isIdle c = true := by
  have hsplit : ∀ (p : Char → Bool) (ds : List Char),
      ds = (ds.reverse.dropWhile p).reverse ++ (ds.reverse.takeWhile p).reverse := by
    intro p ds
    rw [← List.reverse_append, List.takeWhile_append_dropWhile, List.reverse_reverse]
  have hwhite : ∀ ds : List Char, ∀ c ∈ (ds.reverse.takeWhile isWhite).reverse, isIdle c = true := by
    intro ds c hc
    rw [isIdle, List.mem_takeWhile_imp (List.mem_reverse.1 hc), Bool.true_or]
  let inner := ((trim cs).reverse.dropWhile (· == ';')).reverse
  refine ⟨(inner.reverse.takeWhile isWhite).reverse ++
    (((trim cs).reverse.takeWhile (· == ';')).reverse ++
      ((trimStart cs).reverse.takeWhile isWhite).reverse), ?_, fun c hc => ?_⟩
  · calc trimStart cs = trim cs ++ ((trimStart cs).reverse.takeWhile isWhite).reverse :=
          hsplit isWhite (trimStart cs)
      _ = (inner ++ ((trim cs).reverse.takeWhile (· == ';')).reverse) ++
          ((trimStart cs).reverse.takeWhile isWhite).reverse := by rw [← hsplit]
      _ = ((bareText cs ++ (inner.reverse.takeWhile isWhite).reverse) ++
          ((trim cs).reverse.takeWhile (· == ';')).reverse) ++
          ((trimStart cs).reverse.takeWhile isWhite).reverse := by
        rw [bareText, trimEnd, ← hsplit isWhite inner]
      _ = _ := by simp only [List.append_assoc]
  · rcases List.mem_append.1 hc with hc | hc
    · exact hwhite inner c hc
    · rcases List.mem_append.1 hc with hc | hc
      · have hsemicolon := List.mem_takeWhile_imp (List.mem_reverse.1 hc)
        rw [isIdle, hsemicolon, Bool.or_true]
      · exact hwhite (trimStart cs) c hc

/-- A text has the kind that its leading words have when white space and semicolons are taken off
both ends. -/
theorem classify_eq_some_iff {sql : String} {kind : StatementKind} : classify sql = some kind ↔
    ∃ rest, Reader.leading (bareText sql.toList) = .ok (kind, rest) := by
  obtain ⟨tail, hsplit, htail⟩ := trimStart_eq_bareText sql.toList
  have hsame := Reader.ignoresTail_leading (bareText sql.toList) tail htail
  rw [classify, hsplit]
  generalize Reader.leading (bareText sql.toList ++ tail) = long at hsame
  generalize Reader.leading (bareText sql.toList) = short at hsame
  cases hsame with
  | read kind rest => simp
  | failed place place' => simp

/-! ## Statements and their kinds -/

theorem kind_of_parseBody {kind : StatementKind} {rest : List Char} {s : Statement}
    (h : parseBody kind rest = .ok s) : s.kind = kind := by
  cases kind with
  | showTables =>
    obtain rfl := Except.ok.inj h
    rfl
  | select | insert | update | delete | createTable =>
    obtain ⟨_, -, rfl⟩ := ok_of_map h
    rfl

theorem parse_of_classify {sql : String} {kind : StatementKind} (h : classify sql = some kind) :
    (∃ s, parse sql = .ok s ∧ s.kind = kind) ∨
      ∃ cause, parse sql = .error (.malformed kind cause) := by
  obtain ⟨rest, hleading⟩ := classify_eq_some_iff.1 h
  have hparse : parse sql = (parseBody kind rest).mapError (.malformed kind) := by
    simp only [parse, parseText, hleading]
  rw [hparse]
  cases hbody : parseBody kind rest with
  | ok s => exact Or.inl ⟨s, rfl, kind_of_parseBody hbody⟩
  | error cause => exact Or.inr ⟨cause, rfl⟩

theorem parse_of_classify_none {sql : String} (h : classify sql = none) :
    parse sql = .error (.unsupportedText (bareText sql.toList)) := by
  cases hleading : Reader.leading (bareText sql.toList) with
  | ok result =>
    obtain ⟨kind, rest⟩ := result
    rw [classify_eq_some_iff.2 ⟨rest, hleading⟩] at h
    exact absurd h (by simp)
  | error place => simp only [parse, parseText, hleading]

end RecordShelf.Sql

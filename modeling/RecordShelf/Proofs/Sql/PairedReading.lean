import RecordShelf.Proofs.Sql.LetterCase

/-!
# Reading two texts side by side

A reader comes to the same on two texts if it fails on both, or reads values from both that go
together and leaves texts that do. The relation passes through the ways in which readers are put
together, so that it has to be shown of the smallest readers only. From texts that differ in letter
case, names, keywords and numbers are read the same.
-/

namespace RecordShelf.Sql
open Text

/-- Both fail, or both end in values that go together. -/
inductive Agree {ε α : Type} (R : α → α → Prop) : Except ε α → Except ε α → Prop
  | ok {a b : α} (value : R a b) : Agree R (.ok a) (.ok b)
  | error (e e' : ε) : Agree R (.error e) (.error e')

namespace Agree
variable {ε δ α β : Type} {R R' : α → α → Prop} {T : β → β → Prop} {x y : Except ε α}

theorem mono (h : Agree R x y) (hR : ∀ a b, R a b → R' a b) : Agree R' x y := by
  cases h with
  | ok value => exact .ok (hR _ _ value)
  | error e e' => exact .error e e'

theorem bind {f g : α → Except ε β} (h : Agree R x y) (hf : ∀ a b, R a b → Agree T (f a) (g b)) :
    Agree T (x >>= f) (y >>= g) := by
  cases h with
  | ok value => exact hf _ _ value
  | error e e' => exact .error e e'

theorem map {f : α → β} (h : Agree R x y) (hf : ∀ a b, R a b → T (f a) (f b)) :
    Agree T (f <$> x) (f <$> y) := by
  cases h with
  | ok value => exact .ok (hf _ _ value)
  | error e e' => exact .error e e'

theorem mapError (h : Agree R x y) (f : ε → δ) : Agree R (x.mapError f) (y.mapError f) := by
  cases h with
  | ok value => exact .ok value
  | error e e' => exact .error _ _

theorem toOption_eq (h : Agree Eq x y) : x.toOption = y.toOption := by
  cases h with
  | ok value => exact congrArg some value
  | error e e' => rfl

end Agree

/-- Values that go together, with texts left behind them that do. -/
def Results {α : Type} (R : α → α → Prop) (Q : List Char → List Char → Prop)
    (r r' : α × List Char) : Prop :=
  R r.1 r'.1 ∧ Q r.2 r'.2

/-- From texts that go together by `P` the two readers come to the same. -/
def ReadsAs {α : Type} (P Q : List Char → List Char → Prop) (R : α → α → Prop)
    (reader reader' : Reader α) : Prop :=
  ∀ cs ds, P cs ds → Agree (Results R Q) (reader cs) (reader' ds)

/-- The usual case, in which one reader takes the same value from both texts. -/
abbrev Reads {α : Type} (P Q : List Char → List Char → Prop) (reader : Reader α) : Prop :=
  ReadsAs P Q Eq reader reader

section
variable {α β : Type} {P P' Q Q' S : List Char → List Char → Prop} {R : α → α → Prop}
  {T : β → β → Prop} {reader reader' second second' : Reader α} {cs ds : List Char}

namespace ReadsAs

theorem pure {a b : α} (h : R a b) : ReadsAs P P R (Pure.pure a : Reader α) (Pure.pure b) :=
  fun _ _ hcs => .ok ⟨h, hcs⟩

theorem bind {f f' : α → Reader β} (h : ReadsAs P Q R reader reader')
    (hf : ∀ a b, R a b → ReadsAs Q S T (f a) (f' b)) :
    ReadsAs P S T (reader >>= f) (reader' >>= f') :=
  fun cs ds hcs => (h cs ds hcs).bind fun r r' hresult => hf r.1 r'.1 hresult.1 _ _ hresult.2

theorem either (h : ReadsAs P Q R reader reader') (hsecond : ReadsAs P Q R second second') :
    ReadsAs P Q R (Reader.either reader second) (Reader.either reader' second') := by
  intro cs ds hcs
  have hfirst := h cs ds hcs
  rw [Reader.either, Reader.either]
  generalize reader cs = x at hfirst ⊢
  generalize reader' ds = y at hfirst ⊢
  cases hfirst with
  | ok hresult => exact .ok hresult
  | error _ _ => exact hsecond cs ds hcs

end ReadsAs

namespace Reads

theorem pre (h : Reads P Q reader) (hP : ∀ cs ds, P' cs ds → P cs ds) : Reads P' Q reader :=
  fun cs ds hcs => h cs ds (hP cs ds hcs)

theorem post (h : Reads P Q reader) (hQ : ∀ cs ds, Q cs ds → Q' cs ds) : Reads P Q' reader :=
  fun cs ds hcs => (h cs ds hcs).mono fun _ _ hresult => ⟨hresult.1, hQ _ _ hresult.2⟩

theorem pure (a : α) : Reads P P (Pure.pure a : Reader α) := ReadsAs.pure rfl

theorem bind {f : α → Reader β} (h : Reads P Q reader) (hf : ∀ a, Reads Q S (f a)) :
    Reads P S (reader >>= f) :=
  ReadsAs.bind h fun a _ hab => hab ▸ hf a

theorem map (h : Reads P Q reader) (f : α → β) : Reads P Q (f <$> reader) :=
  h.bind fun a => .pure (f a)

theorem either (h : Reads P Q reader) (hsecond : Reads P Q second) :
    Reads P Q (Reader.either reader second) :=
  ReadsAs.either h hsecond

/-- Where nothing is read, the texts are left as they were. -/
theorem optional (h : Reads P Q reader) (hP : ∀ cs ds, P cs ds → Q cs ds) :
    Reads P Q (Reader.optional reader) := by
  intro cs ds hcs
  have hread := h cs ds hcs
  rw [Reader.optional, Reader.optional]
  generalize reader cs = x at hread ⊢
  generalize reader ds = y at hread ⊢
  cases hread with
  | ok hresult => exact .ok ⟨congrArg some hresult.1, hresult.2⟩
  | error _ _ => exact .ok ⟨rfl, hP cs ds hcs⟩

theorem filterMap {f : α → Option β} (h : Reads P Q reader) :
    Reads P Q (Reader.filterMap reader f) := by
  intro cs ds hcs
  have hread := h cs ds hcs
  rw [Reader.filterMap, Reader.filterMap]
  generalize reader cs = x at hread ⊢
  generalize reader ds = y at hread ⊢
  cases hread with
  | @ok r r' hresult =>
    dsimp only
    rw [← hresult.1]
    cases f r.1 with
    | some b => exact .ok ⟨rfl, hresult.2⟩
    | none => exact .error _ _
  | error place place' => exact .error place place'

/-! ## Whole texts -/

/-- What goes with the empty text is empty. -/
theorem whole (h : Reads P Alike reader) (hcs : P cs ds) :
    Agree Eq (Reader.whole reader cs) (Reader.whole reader ds) := by
  have hread := h cs ds hcs
  rw [Reader.whole, Reader.whole]
  generalize reader cs = x at hread ⊢
  generalize reader ds = y at hread ⊢
  cases hread with
  | @ok r r' hresult =>
    obtain ⟨a, rest⟩ := r
    obtain ⟨b, rest'⟩ := r'
    obtain ⟨hvalue, hrest⟩ : a = b ∧ Alike rest rest' := hresult
    cases rest with
    | nil =>
      obtain rfl := hrest.nil_left
      exact .ok hvalue
    | cons c rest =>
      obtain ⟨d, rest', rfl, -⟩ := hrest.cons_left
      exact .error _ _
  | error _ _ => exact .error _ _

theorem whole? (h : Reads P Alike reader) (hcs : P cs ds) :
    Reader.whole? reader cs = Reader.whole? reader ds :=
  (h.whole hcs).toOption_eq

end Reads

end

/-! ## The smallest readers -/

namespace Reader
variable {p : Char → Bool} {word : List Char} {cs ds : List Char}

theorem reads_char {c : Char} (hc : Letterless (· == c)) :
    Reads Alike Alike (char c) := by
  intro cs ds h
  cases cs with
  | nil =>
    rw [h.nil_left]
    exact .error _ _
  | cons e cs =>
    obtain ⟨e', ds, rfl, he, hcs⟩ := h.cons_left
    rw [char, satisfy, satisfy, ← hc.folds.congr he]
    split_ifs with hmatch
    · exact .ok ⟨hc.eq he hmatch, hcs⟩
    · exact .error _ _

theorem takeWhile_eq_of_letterless (hp : Letterless p) (h : Alike cs ds) :
    cs.takeWhile p = ds.takeWhile p :=
  (h.takeWhile hp.folds).eq_of_letterless hp (fun _ hc => List.mem_takeWhile_imp hc)
    fun _ hd => List.mem_takeWhile_imp hd

theorem reads_run (hp : Letterless p) : Reads Alike Alike (run p) :=
  fun _ _ h => .ok ⟨takeWhile_eq_of_letterless hp h, h.dropWhile hp.folds⟩

theorem reads_run1 (hp : Letterless p) : Reads Alike Alike (run1 p) := by
  intro cs ds h
  rw [run1, run1, takeWhile_eq_of_letterless hp h]
  split_ifs
  · exact .error _ _
  · exact .ok ⟨rfl, h.dropWhile hp.folds⟩

theorem reads_blanks : Reads Alike Alike blanks := reads_run letterless_isSpacing

theorem reads_blanks1 : Reads Alike Alike blanks1 := reads_run1 letterless_isSpacing

theorem dropText?_alike (hword : ∀ w ∈ word, Letterless (· == w)) (h : Alike cs ds) :
    Option.Rel Alike (dropText? word cs) (dropText? word ds) := by
  induction word generalizing cs ds with
  | nil => exact .some h
  | cons w word ih =>
    obtain ⟨hw, hword⟩ := List.forall_mem_cons.1 hword
    cases cs with
    | nil =>
      rw [h.nil_left]
      exact .none
    | cons c cs =>
      obtain ⟨d, ds, rfl, hc, hcs⟩ := h.cons_left
      simp only [dropText?, eq_iff_of_letterless hw hc]
      split_ifs
      · exact ih hword hcs
      · exact .none

theorem reads_text (hword : ∀ w ∈ word, Letterless (· == w)) :
    Reads Alike Alike (text word) := by
  intro cs ds h
  have hdrop := dropText?_alike hword h
  rw [text, text]
  generalize dropText? word cs = x at hdrop ⊢
  generalize dropText? word ds = y at hdrop ⊢
  cases hdrop with
  | some hrest => exact .ok ⟨rfl, hrest⟩
  | none => exact .error _ _

theorem dropWord?_alike (h : Alike cs ds) :
    Option.Rel Alike (dropWord? word cs) (dropWord? word ds) := by
  induction word generalizing cs ds with
  | nil => exact .some h
  | cons w word ih =>
    cases cs with
    | nil =>
      rw [h.nil_left]
      exact .none
    | cons c cs =>
      obtain ⟨d, ds, rfl, hc, hcs⟩ := h.cons_left
      rw [dropWord?, dropWord?, hc]
      split_ifs
      · exact ih hcs
      · exact .none

/-- A keyword is found in any case. -/
theorem reads_keyword (word : String) : Reads Alike Alike (keyword word) := by
  intro cs ds h
  have hdrop : Option.Rel Alike (dropWord? word.toList cs) (dropWord? word.toList ds) :=
    dropWord?_alike h
  rw [keyword, keyword]
  generalize dropWord? word.toList cs = x at hdrop ⊢
  generalize dropWord? word.toList ds = y at hdrop ⊢
  cases hdrop with
  | none => exact .error _ _
  | @some rest rest' hrest =>
    cases rest with
    | nil =>
      rw [hrest.nil_left]
      exact .ok ⟨rfl, Alike.refl []⟩
    | cons c rest =>
      obtain ⟨d, rest', rfl, hc, -⟩ := hrest.cons_left
      dsimp only
      rw [← folds_isWord.congr hc]
      split_ifs
      · exact .error _ _
      · exact .ok ⟨rfl, hrest⟩

/-! ## Names and numbers -/

theorem reads_bareName : ReadsAs Alike Alike Alike bareName bareName := by
  intro cs ds h
  have hname : Alike (cs.takeWhile isWord) (ds.takeWhile isWord) := h.takeWhile folds_isWord
  rw [bareName, run1, run1, ← hname.isEmpty]
  split_ifs
  · exact .error _ _
  · exact .ok ⟨hname, h.dropWhile folds_isWord⟩

/-- A name is folded, whatever its case. -/
theorem reads_identifier : Reads Alike Alike identifier := by
  have htick : Reads Alike Alike (char '`') := reads_char (by decide)
  have hquoted : ReadsAs Alike Alike Alike (do
      let _ ← char '`'
      let name ← bareName
      let _ ← char '`'
      return name) (do
      let _ ← char '`'
      let name ← bareName
      let _ ← char '`'
      return name) :=
    ReadsAs.bind htick fun _ _ _ => reads_bareName.bind fun _ _ hname =>
      ReadsAs.bind htick fun _ _ _ => .pure hname
  exact (hquoted.either reads_bareName).bind fun _ _ hname =>
    .pure (congrArg String.ofList hname.lowerCase_eq)

theorem reads_signedDigits : Reads Alike Alike signedDigits :=
  ((reads_char (by decide)).optional fun _ _ => id).bind fun _ =>
    (reads_run1 letterless_isDigit).bind fun _ => .pure _

theorem reads_float : Reads Alike Alike float :=
  reads_signedDigits.bind fun _ => (reads_char (by decide)).bind fun _ =>
    (reads_run1 letterless_isDigit).bind fun _ => .pure _

theorem reads_int : Reads Alike Alike int := reads_signedDigits.filterMap

/-- One of two words, in any case. -/
theorem reads_word {α : Type} (word : String) (a : α) :
    Reads Alike Alike (do keyword word; return a : Reader α) :=
  (reads_keyword word).bind fun _ => .pure _

/-! ## Parts of terms -/

theorem reads_negation : Reads Alike Alike negation :=
  (((reads_keyword "not").bind fun _ => reads_blanks1.bind fun _ => .pure _).optional
    fun _ _ => id).bind fun _ => .pure _

theorem reads_isNull : Reads Alike Alike isNull :=
  reads_identifier.bind fun _ => reads_blanks1.bind fun _ => (reads_keyword "is").bind
    fun _ => reads_blanks1.bind fun _ => reads_negation.bind fun _ =>
      (reads_keyword "null").bind fun _ => .pure _

theorem reads_count : Reads Alike Alike count := by
  have hlabel : Reads Alike Alike (do
      let _ ← blanks1
      let _ ← optional do
        keyword "as"
        let _ ← blanks1
      identifier) :=
    reads_blanks1.bind fun _ =>
      (((reads_keyword "as").bind fun _ => reads_blanks1.bind fun _ => .pure _).optional
        fun _ _ => id).bind fun _ => reads_identifier
  exact (reads_keyword "count").bind fun _ => reads_blanks.bind fun _ =>
    (reads_char (by decide)).bind fun _ => reads_blanks.bind fun _ =>
      ((reads_char (by decide)).either (reads_char (by decide))).bind fun _ =>
        reads_blanks.bind fun _ => (reads_char (by decide)).bind fun _ =>
          hlabel.optional fun _ _ => id

theorem reads_orderItem : Reads Alike Alike orderItem :=
  reads_identifier.bind fun _ =>
    ((reads_blanks1.bind fun _ => (reads_word "asc" _).either (reads_word "desc" _)).optional
      fun _ _ => id).bind fun _ => .pure _

/-! ## Parts of statements -/

theorem reads_ifNotExists : Reads Alike Alike ifNotExists :=
  (reads_keyword "if").bind fun _ => reads_blanks1.bind fun _ =>
    (reads_keyword "not").bind fun _ => reads_blanks1.bind fun _ =>
      (reads_keyword "exists").bind fun _ => reads_blanks1.bind fun _ => .pure _

theorem reads_createdTable : Reads Alike Alike createdTable :=
  reads_blanks1.bind fun _ => (reads_ifNotExists.optional fun _ _ => id).bind fun _ =>
    reads_identifier.bind fun _ => .pure _

end Reader

end RecordShelf.Sql

import RecordShelf.Proofs.Sql.Lexemes
import RecordShelf.Sql.Clause

/-!
# Texts put together from parts

Parts that are joined by commas, by AND or by clause keywords are found again by cutting the text
where these stand, as long as no part holds them in its code.
-/

namespace RecordShelf.Sql
open Text

/-! ## Trimmed parts -/

/-- A text without white space around it and without a semicolon at its end. -/
structure Trimmed (cs : List Char) : Prop where
  nonempty : cs ≠ []
  first : ∀ c ∈ cs.head?, isWhite c = false
  last : ∀ c ∈ cs.getLast?, isWhite c = false ∧ c ≠ ';'

theorem trim_padded {before cs after : List Char} (hbefore : ∀ c ∈ before, isWhite c = true)
    (h : Trimmed cs) (hafter : ∀ c ∈ after, isWhite c = true) :
    trim (before ++ (cs ++ after)) = cs := by
  have hstart : trimStart (before ++ (cs ++ after)) = cs ++ after := by
    apply Reader.dropWhile_append hbefore
    obtain ⟨c, tail, rfl⟩ := List.exists_cons_of_ne_nil h.nonempty
    intro d hd
    exact h.first d hd
  rw [trim, hstart, trimEnd, List.reverse_append, Reader.dropWhile_append, List.reverse_reverse]
  · exact fun c hc => hafter c (List.mem_reverse.1 hc)
  · rw [List.head?_reverse]
    exact fun c hc => (h.last c hc).1

theorem isWhite_space : ∀ c ∈ [' '], isWhite c = true := List.forall_mem_singleton.2 (by decide)

theorem trim_before {pre cs : List Char} (hpre : ∀ c ∈ pre, isWhite c = true) (h : Trimmed cs) :
    trim (pre ++ cs) = cs := by
  have hnone : ∀ c ∈ ([] : List Char), isWhite c = true := fun c hc => absurd hc List.not_mem_nil
  have hpadded := trim_padded hpre h hnone
  rwa [List.append_nil] at hpadded

theorem Trimmed.trim_eq {cs : List Char} (h : Trimmed cs) : trim cs = cs := by
  have hnone : ∀ c ∈ ([] : List Char), isWhite c = true := fun c hc => absurd hc List.not_mem_nil
  exact trim_before hnone h

theorem trimmed_singleton {c : Char} (hc : isWhite c = false ∧ c ≠ ';') : Trimmed [c] := by
  refine ⟨List.cons_ne_nil c [], fun d hd => ?_, fun d hd => ?_⟩
  · obtain rfl := Option.some.inj hd
    exact hc.1
  · obtain rfl := Option.some.inj hd
    exact hc

theorem trimmed_word {name : List Char} (hne : name ≠ []) (hname : ∀ c ∈ name, isAsciiWord c = true) :
    Trimmed name := by
  have hends : ∀ c ∈ name, isWhite c = false ∧ c ≠ ';' := by
    intro c hc
    refine ⟨isWhite_of_isAsciiWord (hname c hc), ?_⟩
    rintro rfl
    exact absurd (hname ';' hc) (by decide)
  exact ⟨hne, fun c hc => (hends c (List.mem_of_mem_head? hc)).1,
    fun c hc => hends c (List.mem_of_mem_getLast? hc)⟩

theorem Trimmed.around {u v : List Char} (hu : Trimmed u) (hv : Trimmed v) (mid : List Char) :
    Trimmed (u ++ (mid ++ v)) := by
  obtain ⟨c, tail, rfl⟩ := List.exists_cons_of_ne_nil hu.nonempty
  refine ⟨by simp, hu.first, ?_⟩
  have hlast : (c :: tail ++ (mid ++ v)).getLast? = v.getLast? := by
    rw [List.getLast?_append, List.getLast?_append, List.getLast?_eq_some_getLast hv.nonempty]
    rfl
  rw [hlast]
  exact hv.last

theorem trimmed_intercalate {sep : List Char} {items : List (List Char)} (hne : items ≠ [])
    (h : ∀ item ∈ items, Trimmed item) : Trimmed (sep.intercalate items) := by
  obtain ⟨item, items, rfl⟩ := List.exists_cons_of_ne_nil hne
  clear hne
  induction items generalizing item with
  | nil =>
    rw [List.intercalate_singleton]
    exact h item List.mem_cons_self
  | cons next items ih =>
    obtain ⟨hitem, hitems⟩ := List.forall_mem_cons.1 h
    rw [List.intercalate_cons_cons, List.append_assoc]
    exact hitem.around (ih next hitems) sep

theorem Trimmed.bareText_eq {cs : List Char} (h : Trimmed cs) : bareText cs = cs := by
  obtain ⟨hlast, hsemicolon⟩ := h.last _ (List.getLast?_eq_some_getLast h.nonempty)
  have hsplit : cs.dropLast ++ [cs.getLast h.nonempty] = cs := List.dropLast_concat_getLast h.nonempty
  obtain ⟨c, tail, rfl⟩ := List.exists_cons_of_ne_nil h.nonempty
  exact Sql.bareText_eq (h.first c rfl) hsplit.symm hlast hsemicolon

/-- Parts and the separators between them are words and characters of the same kind. -/
theorem lexed_intercalate {word : List Char → Prop} {loose : Char → Prop} {sep : List Char}
    {items : List (List Char)} (hends : ∀ rest, EndsWord (sep ++ rest))
    (hsep : ∀ rest, Lexed word loose rest → Lexed word loose (sep ++ rest))
    (h : ∀ item ∈ items, Lexed word loose item) : Lexed word loose (sep.intercalate items) := by
  cases items with
  | nil => exact .nil
  | cons item items =>
    induction items generalizing item with
    | nil =>
      rw [List.intercalate_singleton]
      exact h item List.mem_cons_self
    | cons next items ih =>
      obtain ⟨hitem, hitems⟩ := List.forall_mem_cons.1 h
      rw [List.intercalate_cons_cons, List.append_assoc]
      exact hitem.append (hsep _ (ih next hitems)) (hends _)

/-! ## Commas -/

theorem cutAt_ne_nil (sep : Char) (ms : List Marked) : cutAt sep ms ≠ [] := by
  cases ms with
  | nil => simp [cutAt]
  | cons m ms =>
    rw [cutAt]
    split
    · split_ifs <;> simp
    · simp

theorem cutAt_plain {sep : Char} {m : Marked} (hm : ¬(m.1 = sep ∧ m.isTop = true))
    {ms : List Marked} {piece : List Char} {pieces : List (List Char)}
    (hms : cutAt sep ms = piece :: pieces) : cutAt sep (m :: ms) = (m.1 :: piece) :: pieces := by
  rw [cutAt, hms]
  exact if_neg hm

/-- What has no separator stays in one piece. -/
theorem cutAt_append {sep : Char} {ms : List Marked}
    (h : ∀ m ∈ ms, m.isTop = true → m.1 ≠ sep) {ns : List Marked} {piece : List Char}
    {pieces : List (List Char)} (hns : cutAt sep ns = piece :: pieces) :
    cutAt sep (ms ++ ns) = (ms.map (·.1) ++ piece) :: pieces := by
  induction ms with
  | nil => exact hns
  | cons m ms ih =>
    obtain ⟨hm, hms⟩ := List.forall_mem_cons.1 h
    exact cutAt_plain (fun both => hm both.2 both.1) (ih hms)

theorem cutAt_separator {sep : Char} {m : Marked} (hsep : m.1 = sep) (htop : m.isTop = true)
    (ns : List Marked) : cutAt sep (m :: ns) = [] :: cutAt sep ns := by
  obtain ⟨piece, pieces, hpieces⟩ := List.exists_cons_of_ne_nil (cutAt_ne_nil sep ns)
  rw [cutAt, hpieces]
  dsimp only
  rw [if_pos ⟨hsep, htop⟩]

section
variable {word : List Char → Prop} {u rest gap : List Char}

theorem cutAt_whole (h : Lexed word (· ≠ ',') u) : cutAt ',' (mark u) = [u] := by
  have hcut : cutAt ',' (mark u ++ []) = [(mark u).map (·.1) ++ []] :=
    cutAt_append (h.no_separator (by decide)) rfl
  rwa [List.append_nil, List.append_nil, mark, markFrom_map_fst] at hcut

theorem cutAt_comma (h : Lexed word (· ≠ ',') u) :
    cutAt ',' (mark (u ++ ',' :: rest)) = u :: cutAt ',' (mark rest) := by
  have hcut := cutAt_append (h.no_separator (by decide))
    (cutAt_separator (m := (',', .code 0)) rfl rfl (mark rest))
  rw [h.mark_append, mark_loose (by decide), hcut, mark, markFrom_map_fst, List.append_nil]

theorem cutAt_intercalate {item : List Char} {items : List (List Char)}
    (h : Lexed word (· ≠ ',') (u ++ item))
    (hitems : ∀ item ∈ items, Lexed word (· ≠ ',') (gap ++ item)) :
    cutAt ',' (mark (u ++ (',' :: gap).intercalate (item :: items))) =
      (u ++ item) :: items.map (gap ++ ·) := by
  induction items generalizing u item with
  | nil => rw [List.intercalate_singleton, cutAt_whole h, List.map_nil]
  | cons next items ih =>
    obtain ⟨hnext, hitems⟩ := List.forall_mem_cons.1 hitems
    have hsplit : u ++ (',' :: gap).intercalate (item :: next :: items) =
        u ++ item ++ ',' :: (gap ++ (',' :: gap).intercalate (next :: items)) := by
      rw [List.intercalate_cons_cons]
      simp
    rw [hsplit, cutAt_comma h, ih hnext hitems, List.map_cons]

/-- Items that are joined by commas, each with a gap behind it, are found again. -/
theorem splitTopLevel_intercalate {items : List (List Char)} (hne : items ≠ [])
    (hgap : gap = [] ∨ gap = [' ']) (hlexed : ∀ item ∈ items, Lexed word (· ≠ ',') item)
    (htrimmed : ∀ item ∈ items, Trimmed item) :
    splitTopLevel ',' ((',' :: gap).intercalate items) = items := by
  have hblank : ∀ c ∈ gap, isWhite c = true := by
    rcases hgap with rfl | rfl
    · exact fun c hc => absurd hc List.not_mem_nil
    · exact isWhite_space
  have hpadded : ∀ item ∈ items, Lexed word (· ≠ ',') (gap ++ item) := by
    intro item hitem
    rcases hgap with rfl | rfl
    · exact hlexed item hitem
    · exact .loose (by decide) (by decide) (hlexed item hitem)
  obtain ⟨item, items, rfl⟩ := List.exists_cons_of_ne_nil hne
  have hcut := cutAt_intercalate (u := []) (hlexed item List.mem_cons_self)
    fun next hnext => hpadded next (List.mem_cons_of_mem _ hnext)
  have hfirst := (htrimmed item List.mem_cons_self).trim_eq
  have hothers : (items.map (gap ++ ·)).map trim = items := by
    rw [List.map_map]
    refine (List.map_congr_left fun next hnext => ?_).trans (List.map_id items)
    exact trim_before hblank (htrimmed next (List.mem_cons_of_mem _ hnext))
  rw [List.nil_append, List.nil_append] at hcut
  rw [splitTopLevel, hcut, List.map_cons, hothers, hfirst]

end

/-! ## Conjunctions -/

section
variable {loose : Char → Prop}

/-- The AND between two terms. -/
def conjunction : List Char := " AND ".toList

theorem findKeyword_and {u : List Char} (h : Lexed (· ≠ "and".toList) loose u) (rest : List Char) :
    findKeyword andWord (u ++ (conjunction ++ rest)) = some (u.length + 1, u.length + 4) := by
  have hfound : findKeyword ["and".toList] (u ++ ' ' :: ("AND".toList ++ ' ' :: rest)) =
      some (u.length + 1, u.length + 1 + "AND".toList.length) :=
    findKeyword_behind (by decide) h (m := ('A', .code 0)) rfl rfl rfl
  exact hfound

theorem map_trim_conjuncts {fuel : ℕ} {u term : List Char} {terms : List (List Char)}
    (hfuel : terms.length ≤ fuel) (hblank : ∀ c ∈ u, isWhite c = true)
    (h : Lexed (· ≠ "and".toList) loose (u ++ term)) (hspace : loose ' ')
    (hlexed : ∀ t ∈ terms, Lexed (· ≠ "and".toList) loose t)
    (htrimmed : ∀ t ∈ term :: terms, Trimmed t) :
    (conjuncts fuel (u ++ conjunction.intercalate (term :: terms))).map trim = term :: terms := by
  induction terms generalizing fuel u term with
  | nil =>
    have htrim := trim_before hblank (htrimmed term List.mem_cons_self)
    rw [List.intercalate_singleton]
    cases fuel with
    | zero => rw [conjuncts, List.map_singleton, htrim]
    | succ fuel =>
      have hnone : findKeyword andWord (u ++ term) = none := findKeyword_absent (by decide) h
      rw [conjuncts, hnone, List.map_singleton, htrim]
  | cons next terms ih =>
    obtain ⟨hnext, hlexed⟩ := List.forall_mem_cons.1 hlexed
    obtain ⟨hterm, htrimmed⟩ := List.forall_mem_cons.1 htrimmed
    have htrim := trim_padded hblank hterm isWhite_space
    cases fuel with
    | zero => exact absurd hfuel (by simp)
    | succ fuel =>
      have hsplit : u ++ conjunction.intercalate (term :: next :: terms) =
          (u ++ term) ++ (conjunction ++ conjunction.intercalate (next :: terms)) := by
        rw [List.intercalate_cons_cons]
        simp only [List.append_assoc]
      have htake : ((u ++ term) ++ (conjunction ++ conjunction.intercalate (next :: terms))).take
          ((u ++ term).length + 1) = u ++ (term ++ [' ']) := by
        rw [List.take_length_add_append, List.append_assoc]
        rfl
      have hdrop : ((u ++ term) ++ (conjunction ++ conjunction.intercalate (next :: terms))).drop
          ((u ++ term).length + 4) = [' '] ++ conjunction.intercalate (next :: terms) := by
        rw [List.drop_length_add_append]
        rfl
      rw [hsplit, conjuncts, findKeyword_and h]
      dsimp only
      rw [htake, hdrop, List.map_cons, htrim,
        ih (Nat.le_of_succ_le_succ hfuel) isWhite_space (.loose (by decide) hspace hnext) hlexed htrimmed]

/-- Terms that are joined by AND are found again. -/
theorem splitConjunction_intercalate {terms : List (List Char)} (hne : terms ≠ [])
    (hspace : loose ' ') (hlexed : ∀ t ∈ terms, Lexed (· ≠ "and".toList) loose t)
    (htrimmed : ∀ t ∈ terms, Trimmed t) :
    splitConjunction (conjunction.intercalate terms) = terms := by
  obtain ⟨term, terms, rfl⟩ := List.exists_cons_of_ne_nil hne
  have hfuel : terms.length ≤ (conjunction.intercalate (term :: terms)).length := by
    clear hne hlexed htrimmed
    induction terms generalizing term with
    | nil => exact Nat.zero_le _
    | cons next terms ih =>
      have hnext := ih next
      have hlength : conjunction.length = 5 := rfl
      rw [List.intercalate_cons_cons, List.length_append, List.length_append, List.length_cons]
      omega
  have hcut := map_trim_conjuncts (u := []) hfuel (fun c hc => absurd hc List.not_mem_nil)
    (hlexed term List.mem_cons_self) hspace
    (fun t ht => hlexed t (List.mem_cons_of_mem _ ht)) htrimmed
  rw [List.nil_append] at hcut
  rw [splitConjunction, hcut, List.filter_eq_self]
  intro t ht
  simpa using (htrimmed t ht).nonempty

end

/-! ## Clauses -/

namespace ClauseName

/-- A clause keyword in capitals. -/
def written : ClauseName → List Char
  | .where_ => "WHERE".toList
  | .groupBy => "GROUP BY".toList
  | .having => "HAVING".toList
  | .orderBy => "ORDER BY".toList
  | .limit => "LIMIT".toList
  | .offset => "OFFSET".toList

/-- The first word of a clause keyword. -/
def first : ClauseName → List Char
  | .where_ => "where".toList
  | .groupBy => "group".toList
  | .having => "having".toList
  | .orderBy => "order".toList
  | .limit => "limit".toList
  | .offset => "offset".toList

end ClauseName

/-- The word starts no clause. -/
def Free (word : List Char) : Prop := ∀ name : ClauseName, word ≠ name.first

section
variable {loose : Char → Prop} {u : List Char}

theorem findKeyword_clause (name : ClauseName) (h : Lexed (· ≠ name.first) loose u)
    (rest : List Char) : findKeyword name.words (u ++ ' ' :: (name.written ++ ' ' :: rest)) =
      some (u.length + 1, u.length + 1 + name.written.length) := by
  cases name with
  | where_ => exact findKeyword_behind (by decide) h (m := ('W', .code 0)) rfl rfl rfl
  | groupBy => exact findKeyword_behind (by decide) h (m := ('G', .code 0)) rfl rfl rfl
  | having => exact findKeyword_behind (by decide) h (m := ('H', .code 0)) rfl rfl rfl
  | orderBy => exact findKeyword_behind (by decide) h (m := ('O', .code 0)) rfl rfl rfl
  | limit => exact findKeyword_behind (by decide) h (m := ('L', .code 0)) rfl rfl rfl
  | offset => exact findKeyword_behind (by decide) h (m := ('O', .code 0)) rfl rfl rfl

theorem findKeyword_no_clause (name : ClauseName) (h : Lexed (· ≠ name.first) loose u) :
    findKeyword name.words u = none := by
  cases name <;> exact findKeyword_absent (by decide) h

/-- A word of capitals with what follows it. -/
theorem Lexed.capitals {word : List Char → Prop} {name rest : List Char}
    (hname : name.all Char.isUpper = true) (hne : name ≠ []) (hword : word (name.map Char.toLower))
    (hends : EndsWord rest) (h : Lexed word loose rest) : Lexed word loose (name ++ rest) := by
  exact .word hne (fun c hc => isAsciiWord_of_isUpper (List.all_eq_true.1 hname c hc)) hword hends h

theorem lexed_written (name : ClauseName) {word : List Char → Prop} {rest : List Char}
    (hfirst : word name.first) (hby : word "by".toList) (hspace : loose ' ') (hends : EndsWord rest)
    (h : Lexed word loose rest) : Lexed word loose (name.written ++ rest) := by
  have hone : ∀ kw : List Char, kw.all Char.isUpper = true → kw ≠ [] → kw.map Char.toLower =
      name.first → Lexed word loose (kw ++ rest) := fun kw hkw hne hsame =>
    .capitals hkw hne (by rw [hsame]; exact hfirst) hends h
  have htwo : ∀ kw : List Char, kw.all Char.isUpper = true → kw ≠ [] → kw.map Char.toLower =
      name.first → Lexed word loose (kw ++ ' ' :: ("BY".toList ++ rest)) := fun kw hkw hne hsame =>
    .capitals hkw hne (by rw [hsame]; exact hfirst) (ends_space _)
      (.loose (by decide) hspace (.capitals (by decide) (by decide) hby hends h))
  cases name with
  | where_ => exact hone "WHERE".toList (by decide) (by decide) rfl
  | groupBy => exact htwo "GROUP".toList (by decide) (by decide) rfl
  | having => exact hone "HAVING".toList (by decide) (by decide) rfl
  | orderBy => exact htwo "ORDER".toList (by decide) (by decide) rfl
  | limit => exact hone "LIMIT".toList (by decide) (by decide) rfl
  | offset => exact hone "OFFSET".toList (by decide) (by decide) rfl

end

theorem first_injective {m n : ClauseName} (h : m.first = n.first) : m = n := by
  revert h
  cases m <;> cases n <;> decide

theorem by_ne_first (name : ClauseName) : "by".toList ≠ name.first := by
  cases name <;> decide

section
variable {body : ClauseName → Option (List Char)} {u : List Char} {names : List ClauseName}

/-- Bodies of clauses: they hold no clause keyword outside strings. -/
def Bodies (body : ClauseName → Option (List Char)) : Prop :=
  ∀ name, ∀ b ∈ body name, Lexed Free (fun _ => True) b ∧ Trimmed b

/-- A clause with the spaces before its keyword and its body. -/
def segment (body : ClauseName → Option (List Char)) (name : ClauseName) : List Char :=
  match body name with
  | some b => ' ' :: (name.written ++ ' ' :: b)
  | none => []

/-- Clauses start with a space. -/
theorem head?_segments (body : ClauseName → Option (List Char)) (names : List ClauseName) :
    ∀ c ∈ (names.flatMap (segment body)).head?, c = ' ' := by
  induction names with
  | nil => exact fun c hc => absurd hc (by simp)
  | cons name names ih =>
    rw [List.flatMap_cons, segment]
    split
    · exact fun c hc => (Option.some.inj hc).symm
    · exact ih

theorem ends_segments (body : ClauseName → Option (List Char)) (names : List ClauseName) :
    EndsWord (names.flatMap (segment body)) := by
  intro c hc
  obtain rfl := head?_segments body names c hc
  decide

theorem lexed_segment (hbody : Bodies body) {name other : ClauseName} (hne : name ≠ other) :
    Lexed (· ≠ other.first) (fun _ => True) (segment body name) := by
  rw [segment]
  split
  · rename_i b hb
    have hlexed : Lexed (· ≠ other.first) (fun _ => True) b :=
      (hbody name b hb).1.mono (fun w hw => hw other) fun _ _ => trivial
    refine .loose (by decide) trivial (lexed_written name (fun hsame => hne (first_injective hsame))
      (by_ne_first other) trivial (ends_space _) (.loose (by decide) trivial hlexed))
  · exact .nil

theorem lexed_segments (hbody : Bodies body) {other : ClauseName} (hnot : other ∉ names) :
    Lexed (· ≠ other.first) (fun _ => True) (names.flatMap (segment body)) := by
  induction names with
  | nil => exact .nil
  | cons name names ih =>
    rw [List.mem_cons, not_or] at hnot
    rw [List.flatMap_cons]
    exact (lexed_segment hbody (Ne.symm hnot.1)).append (ih hnot.2) (ends_segments body names)

theorem trimmed_segments (hbody : Bodies body) (hu : Trimmed u) (names : List ClauseName) :
    Trimmed (u ++ names.flatMap (segment body)) := by
  induction names generalizing u with
  | nil =>
    rw [List.flatMap_nil, List.append_nil]
    exact hu
  | cons name names ih =>
    rw [List.flatMap_cons, ← List.append_assoc]
    apply ih
    rw [segment]
    split
    · rename_i b hb
      have hsplit : ' ' :: (name.written ++ ' ' :: b) = (' ' :: (name.written ++ [' '])) ++ b := by
        simp
      rw [hsplit]
      exact hu.around (hbody name b hb).2 _
    · rw [List.append_nil]
      exact hu

/-- Where the keywords of the clauses stand behind a text of some length. -/
def marksBehind (body : ClauseName → Option (List Char)) : ℕ → List ClauseName → List ClauseMark
  | _, [] => []
  | p, name :: names =>
    match body name with
    | some _ => ⟨name, p + 1, p + 1 + name.written.length⟩ ::
      marksBehind body (p + (segment body name).length) names
    | none => marksBehind body p names

theorem segment_of_some {name : ClauseName} {b : List Char} (hb : body name = some b) :
    segment body name = ' ' :: (name.written ++ ' ' :: b) := by
  rw [segment, hb]

theorem segment_of_none {name : ClauseName} (hb : body name = none) : segment body name = [] := by
  rw [segment, hb]

theorem filterMap_findKeyword (hbody : Bodies body) (hnames : names.Nodup)
    (hu : ∀ name ∈ names, Lexed (· ≠ name.first) (fun _ => True) u) :
    names.filterMap (fun name => (findKeyword name.words (u ++ names.flatMap (segment body))).map
      fun (start, stop) => (⟨name, start, stop⟩ : ClauseMark)) = marksBehind body u.length names := by
  induction names generalizing u with
  | nil => rfl
  | cons name names ih =>
    obtain ⟨hnot, hnames⟩ := List.nodup_cons.1 hnames
    obtain ⟨hfirst, hothers⟩ := List.forall_mem_cons.1 hu
    have hrest : ∀ other ∈ names, Lexed (· ≠ other.first) (fun _ => True) (u ++ segment body name) :=
      fun other hother => (hothers other hother).append
        (lexed_segment hbody fun hsame => hnot (hsame ▸ hother)) (by simpa using ends_segments body [name])
    rw [List.flatMap_cons, List.filterMap_cons]
    cases hb : body name with
    | none =>
      have hnone : findKeyword name.words (u ++ names.flatMap (segment body)) = none :=
        findKeyword_no_clause name
          (hfirst.append (lexed_segments hbody hnot) (ends_segments body names))
      rw [segment_of_none hb, List.nil_append, hnone, marksBehind, hb]
      exact ih hnames hothers
    | some b =>
      have hregroup : u ++ (segment body name ++ names.flatMap (segment body)) =
          u ++ ' ' :: (name.written ++ ' ' :: (b ++ names.flatMap (segment body))) := by
        rw [segment_of_some hb]
        simp
      have hlater := ih hnames hrest
      rw [List.append_assoc, List.length_append] at hlater
      rw [hlater, hregroup, findKeyword_clause name hfirst, marksBehind, hb]
      rfl

theorem lt_start_of_mem_marksBehind {p : ℕ} {m : ClauseMark} (hm : m ∈ marksBehind body p names) :
    p < m.start := by
  induction names generalizing p with
  | nil => exact absurd hm List.not_mem_nil
  | cons name names ih =>
    cases hb : body name with
    | none =>
      rw [marksBehind, hb] at hm
      exact ih hm
    | some b =>
      rw [marksBehind, hb] at hm
      rcases List.mem_cons.1 hm with rfl | hm
      · exact Nat.lt_succ_self p
      · exact Nat.lt_of_le_of_lt (Nat.le_add_right p _) (ih hm)

theorem pairwise_marksBehind (body : ClauseName → Option (List Char)) (p : ℕ)
    (names : List ClauseName) :
    (marksBehind body p names).Pairwise fun a b => decide (a.start ≤ b.start) = true := by
  induction names generalizing p with
  | nil => exact List.Pairwise.nil
  | cons name names ih =>
    cases hb : body name with
    | none =>
      rw [marksBehind, hb]
      exact ih p
    | some b =>
      rw [marksBehind, hb]
      refine List.pairwise_cons.2 ⟨fun m hm => decide_eq_true ?_, ih _⟩
      have hlater := lt_start_of_mem_marksBehind hm
      rw [segment_of_some hb, List.length_cons] at hlater
      dsimp only
      omega

theorem clauseMarks_append (hbody : Bodies body) (hu : Lexed Free (fun _ => True) u) :
    clauseMarks (u ++ ClauseName.all.flatMap (segment body)) =
      marksBehind body u.length ClauseName.all := by
  have hnodup : ClauseName.all.Nodup := by decide
  have hfound := filterMap_findKeyword hbody hnodup fun name _ =>
    hu.mono (fun _ hw => hw name) fun _ => id
  rw [clauseMarks, hfound]
  exact List.mergeSort_of_pairwise (pairwise_marksBehind body u.length ClauseName.all)

/-- Up to the next clause there is at most one space. -/
theorem take_nextStart (body : ClauseName → Option (List Char)) (v : List Char)
    (names : List ClauseName) : ∃ gap, (∀ c ∈ gap, isWhite c = true) ∧
      (v ++ names.flatMap (segment body)).take
        (nextStart (v ++ names.flatMap (segment body)) (marksBehind body v.length names)) =
      v ++ gap := by
  induction names with
  | nil =>
    refine ⟨[], fun c hc => absurd hc List.not_mem_nil, ?_⟩
    rw [marksBehind, nextStart, List.take_length]
    rfl
  | cons name names ih =>
    cases hb : body name with
    | none =>
      rw [List.flatMap_cons, segment_of_none hb, List.nil_append, marksBehind, hb]
      exact ih
    | some b =>
      refine ⟨[' '], isWhite_space, ?_⟩
      rw [List.flatMap_cons, segment_of_some hb, marksBehind, hb, nextStart,
        List.take_length_add_append]
      rfl

theorem clauseBodies_segments (hbody : Bodies body) (u : List Char) (names : List ClauseName) :
    clauseBodies (u ++ names.flatMap (segment body)) (marksBehind body u.length names) =
      names.filterMap fun name => (body name).map (name, ·) := by
  induction names generalizing u with
  | nil => rfl
  | cons name names ih =>
    cases hb : body name with
    | none =>
      rw [List.flatMap_cons, segment_of_none hb, List.nil_append, marksBehind, hb,
        List.filterMap_cons, hb]
      exact ih u
    | some b =>
      obtain ⟨gap, hgap, htake⟩ := take_nextStart body (u ++ segment body name) names
      have hlater := ih (u ++ segment body name)
      rw [List.length_append, List.append_assoc] at htake hlater
      have hdrop : (u ++ (segment body name ++ gap)).drop (u.length + 1 + name.written.length) =
          [' '] ++ (b ++ gap) := by
        rw [segment_of_some hb, Nat.add_assoc, List.drop_length_add_append, Nat.add_comm,
          List.cons_append, List.drop_succ_cons, List.append_assoc, List.drop_left]
        rfl
      rw [List.append_assoc] at htake
      rw [List.flatMap_cons, marksBehind, hb, clauseBodies, hlater, slice, htake, hdrop,
        trim_padded isWhite_space (hbody name b hb).2 hgap, List.filterMap_cons, hb]
      rfl

theorem find?_filterMap_body {name : ClauseName} (hname : name ∈ names) :
    ((names.filterMap fun name => (body name).map (name, ·)).find?
      fun found => found.1 = name).map (·.2) = body name := by
  have hmem : ∀ found, found ∈ names.filterMap (fun name => (body name).map (name, ·)) →
      body found.1 = some found.2 := by
    intro found hfound
    obtain ⟨other, -, hother⟩ := List.mem_filterMap.1 hfound
    obtain ⟨b, hb, rfl⟩ := Option.map_eq_some_iff.1 hother
    exact hb
  cases hfind : (names.filterMap fun name => (body name).map (name, ·)).find?
      fun found => found.1 = name with
  | some found =>
    have hsame := List.find?_some hfind
    obtain rfl : found.1 = name := of_decide_eq_true hsame
    exact (hmem found (List.mem_of_find?_eq_some hfind)).symm
  | none =>
    cases hb : body name with
    | none => rfl
    | some b =>
      have hfound : (name, b) ∈ names.filterMap fun name => (body name).map (name, ·) :=
        List.mem_filterMap.2 ⟨name, hname, by rw [hb]; rfl⟩
      exact absurd (decide_eq_true rfl) (List.find?_eq_none.1 hfind _ hfound)

/-- A text of clauses in their order, behind a text that holds no clause, is cut into their bodies. -/
theorem body?_append (hbody : Bodies body) (hu : Lexed Free (fun _ => True) u) (name : ClauseName) :
    (Clauses.ofText (u ++ ClauseName.all.flatMap (segment body))).body? name = body name := by
  have hbodies := clauseBodies_segments hbody u ClauseName.all
  have hall : name ∈ ClauseName.all := by cases name <;> decide
  rw [← clauseMarks_append hbody hu] at hbodies
  rw [Clauses.body?, Clauses.ofText, hbodies]
  exact find?_filterMap_body hall

theorem body?_segments (hbody : Bodies body) (name : ClauseName) :
    (Clauses.ofText (ClauseName.all.flatMap (segment body))).body? name = body name :=
  body?_append hbody .nil name

/-- What stands before the clauses is their head. -/
theorem head_append (hbody : Bodies body) {before : List Char}
    (hbefore : ∀ c ∈ before, isWhite c = true) (hu : Trimmed u)
    (hlexed : Lexed Free (fun _ => True) (before ++ u)) :
    (Clauses.ofText (before ++ u ++ ClauseName.all.flatMap (segment body))).head = u := by
  obtain ⟨gap, hgap, htake⟩ := take_nextStart body (before ++ u) ClauseName.all
  rw [Clauses.ofText, clauseMarks_append hbody hlexed]
  dsimp only
  rw [slice, htake, List.drop_zero, List.append_assoc, trim_padded hbefore hu hgap]

/-- The bodies of a statement with a WHERE clause and no other. -/
def whereOnly (b : List Char) : ClauseName → Option (List Char)
  | .where_ => some b
  | _ => none

theorem bodies_whereOnly {b : List Char} (hlexed : Lexed Free (fun _ => True) b)
    (htrimmed : Trimmed b) : Bodies (whereOnly b) := by
  intro name body hb
  cases name with
  | where_ =>
    obtain rfl := Option.some.inj hb
    exact ⟨hlexed, htrimmed⟩
  | groupBy | having | orderBy | limit | offset => exact nomatch hb

theorem segments_whereOnly (b : List Char) :
    ClauseName.all.flatMap (segment (whereOnly b)) = " WHERE ".toList ++ b := by
  have hwhere : segment (whereOnly b) .where_ = " WHERE ".toList ++ b := segment_of_some rfl
  have hothers : ∀ name : ClauseName, name ≠ .where_ → segment (whereOnly b) name = [] := by
    intro name hname
    apply segment_of_none
    cases name with
    | where_ => exact absurd rfl hname
    | groupBy | having | orderBy | limit | offset => rfl
  rw [ClauseName.all, List.flatMap_cons, hwhere, List.flatMap_eq_nil_iff.2, List.append_nil]
  exact fun name hname => hothers name fun heq => absurd (heq ▸ hname) (by decide)

end

end RecordShelf.Sql

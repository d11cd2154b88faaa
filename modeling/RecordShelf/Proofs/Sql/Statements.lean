import Mathlib.Data.List.TakeWhile
import RecordShelf.Proofs.Run
import RecordShelf.Proofs.Sql.Keywords
import RecordShelf.Proofs.Sql.Reading

/-!
# Statements put together

Statements whose text is put together from a fixed beginning, the name of a table and a fixed end.
A plain name is read as it is. A minus sign ends the name, and then an INSERT has no body that can
be read.
-/

namespace RecordShelf.Sql
open Text

/-! ## The bare text -/

theorem trimEnd_append_singleton (init : List Char) {d : Char} (hd : isWhite d = false) :
    trimEnd (init ++ [d]) = init ++ [d] := by
  rw [trimEnd, List.reverse_append, List.reverse_singleton, List.singleton_append,
    List.dropWhile_cons_of_neg (by simp [hd]), List.reverse_cons, List.reverse_reverse]

theorem trimStart_cons {c : Char} (hc : isWhite c = false) (cs : List Char) :
    trimStart (c :: cs) = c :: cs := by
  rw [trimStart, List.dropWhile_cons_of_neg (by simp [hc])]

/-- Trimming keeps a first character that is no white space. -/
theorem trim_cons {c : Char} (hc : isWhite c = false) (cs : List Char) :
    ∃ rest, trim (c :: cs) = c :: rest := by
  rw [trim, trimStart_cons hc, trimEnd, List.reverse_cons]
  by_cases hall : ∀ d ∈ cs.reverse, isWhite d = true
  · rw [List.dropWhile_append_of_pos hall, List.dropWhile_cons_of_neg (by simp [hc])]
    exact ⟨[], rfl⟩
  · have hne : cs.reverse.dropWhile isWhite ≠ [] := by
      rwa [Ne, List.dropWhile_eq_nil_iff]
    rw [List.dropWhile_append, if_neg (by simpa using hne), List.reverse_append]
    exact ⟨_, rfl⟩

theorem bareText_eq {c d : Char} {cs init : List Char} (hc : isWhite c = false)
    (hlast : c :: cs = init ++ [d]) (hd : isWhite d = false) (hsemicolon : d ≠ ';') :
    bareText (c :: cs) = c :: cs := by
  have htrim : trim (c :: cs) = init ++ [d] := by
    rw [trim, trimStart_cons hc, hlast, trimEnd_append_singleton init hd]
  have hdrop : ((init ++ [d]).reverse.dropWhile (· == ';')).reverse = init ++ [d] := by
    rw [List.reverse_append, List.reverse_singleton, List.singleton_append,
      List.dropWhile_cons_of_neg (by simp [hsemicolon]), List.reverse_cons, List.reverse_reverse]
  rw [bareText, htrim, hdrop, trimEnd_append_singleton init hd, hlast]

/-- A statement keeps its text when it starts and ends in characters that are neither white space
nor a semicolon. -/
theorem bareText_append {c : Char} {cs body : List Char} (hc : isWhite c = false) (hne : body ≠ [])
    (hlast : ∀ d ∈ body.getLast?, isWhite d = false ∧ d ≠ ';') :
    bareText (c :: (cs ++ body)) = c :: (cs ++ body) := by
  obtain ⟨hd, hsemicolon⟩ := hlast _ (List.getLast?_eq_some_getLast hne)
  have hsplit : c :: (cs ++ body) = c :: (cs ++ body.dropLast) ++ [body.getLast hne] := by
    rw [List.cons_append, List.append_assoc, List.dropLast_concat_getLast]
  exact bareText_eq hc hsplit hd hsemicolon

/-! ## INSERT -/

namespace Reader

theorem leading_insert (rest : List Char) :
    leading ("INSERT INTO ".toList ++ rest) = .ok (.insert, ' ' :: rest) := by
  have hinsert : keyword "insert" ("INSERT".toList ++ (" INTO ".toList ++ rest)) =
      .ok ((), " INTO ".toList ++ rest) :=
    keyword_append (by decide) (by simp; decide)
  have hblank : blanks1 ([' '] ++ ("INTO ".toList ++ rest)) = .ok ([' '], "INTO ".toList ++ rest) :=
    run1_append (by simp) (by simp [isSpacing]) (by simp [isSpacing])
  have hinto : keyword "into" ("INTO".toList ++ (' ' :: rest)) = .ok ((), ' ' :: rest) :=
    keyword_append (by decide) (by simp; decide)
  have htwo : twoWords "insert" "into" ("INSERT INTO ".toList ++ rest) = .ok ((), ' ' :: rest) := by
    rw [twoWords]
    exact (bind_of_ok hinsert).trans ((bind_of_ok hblank).trans hinto)
  rw [leading]
  exact either_of_ok ((bind_of_ok htwo).trans rfl)

theorem leading_select (rest : List Char) :
    leading ("SELECT ".toList ++ rest) = .ok (.select, ' ' :: rest) := by
  have hselect : keyword "select" ("SELECT".toList ++ (' ' :: rest)) = .ok ((), ' ' :: rest) :=
    keyword_append (by decide) (by simp; decide)
  have hinsert : keyword "insert" ("SELECT".toList ++ (' ' :: rest)) =
      .error ("SELECT".toList ++ (' ' :: rest)) :=
    keyword_of_none (by simp [dropWord?])
  rw [leading]
  exact (either_of_error (bind_of_error (bind_of_error hinsert))).trans
    (either_of_ok ((bind_of_ok hselect).trans rfl))

theorem leading_update (rest : List Char) :
    leading ("UPDATE ".toList ++ rest) = .ok (.update, ' ' :: rest) := by
  have hinsert : keyword "insert" ("UPDATE ".toList ++ rest) = .error ("UPDATE ".toList ++ rest) :=
    keyword_of_none (by simp [dropWord?])
  have hselect : keyword "select" ("UPDATE ".toList ++ rest) = .error ("UPDATE ".toList ++ rest) :=
    keyword_of_none (by simp [dropWord?])
  have hupdate : keyword "update" ("UPDATE".toList ++ ' ' :: rest) = .ok ((), ' ' :: rest) :=
    keyword_cons (by decide) (by decide) rest
  rw [leading]
  exact (either_of_error (bind_of_error (bind_of_error hinsert))).trans
    ((either_of_error (bind_of_error hselect)).trans
      (either_of_ok ((bind_of_ok hupdate).trans rfl)))

theorem leading_delete (rest : List Char) :
    leading ("DELETE ".toList ++ rest) = .ok (.delete, ' ' :: rest) := by
  have hinsert : keyword "insert" ("DELETE ".toList ++ rest) = .error ("DELETE ".toList ++ rest) :=
    keyword_of_none (by simp [dropWord?])
  have hselect : keyword "select" ("DELETE ".toList ++ rest) = .error ("DELETE ".toList ++ rest) :=
    keyword_of_none (by simp [dropWord?])
  have hupdate : keyword "update" ("DELETE ".toList ++ rest) = .error ("DELETE ".toList ++ rest) :=
    keyword_of_none (by simp [dropWord?])
  have hdelete : keyword "delete" ("DELETE".toList ++ ' ' :: rest) = .ok ((), ' ' :: rest) :=
    keyword_cons (by decide) (by decide) rest
  rw [leading]
  exact (either_of_error (bind_of_error (bind_of_error hinsert))).trans
    ((either_of_error (bind_of_error hselect)).trans ((either_of_error (bind_of_error hupdate)).trans
      (either_of_ok ((bind_of_ok hdelete).trans rfl))))

end Reader

section
variable {name body : List Char}

/-- What follows the name of the table decides how an INSERT is read. -/
theorem parse_insert_word {source : Part InsertSource} (hname : name ≠ [])
    (hascii : ∀ c ∈ name, isAsciiWord c = true)
    (hword : ∀ c ∈ body.head?, isWord c = false) (hne : body ≠ [])
    (hlast : ∀ d ∈ body.getLast?, isWhite d = false ∧ d ≠ ';')
    (hsource : insertSource (trim (body.take
      (((findKeyword duplicateWords body).map (·.1)).getD body.length))) = source) :
    parseText ("INSERT INTO ".toList ++ (name ++ body)) =
      (source.map fun source => Statement.insert ⟨String.ofList (lowerCase name), source,
        (findKeyword duplicateWords body).isSome⟩).mapError (.malformed .insert) := by
  have hbare : bareText ("INSERT INTO ".toList ++ (name ++ body)) =
      "INSERT INTO ".toList ++ (name ++ body) := by
    rw [← List.append_assoc]
    exact bareText_append (by decide) hne hlast
  have htable : Part.ofReader (Reader.tableName (' ' :: (name ++ body))) =
      .ok (String.ofList (lowerCase name), body) := by
    rw [Reader.tableName_word hname hascii hword]
    rfl
  rw [parseText, hbare]
  simp only [Reader.leading_insert]
  rw [parseBody, parseInsert, htable, ok_bind]
  dsimp only
  rw [hsource]
  cases source <;> rfl

theorem parse_insert {source : Part InsertSource} (hname : Plain name)
    (hword : ∀ c ∈ body.head?, isWord c = false) (hne : body ≠ [])
    (hlast : ∀ d ∈ body.getLast?, isWhite d = false ∧ d ≠ ';')
    (hsource : insertSource (trim (body.take
      (((findKeyword duplicateWords body).map (·.1)).getD body.length))) = source) :
    parseText ("INSERT INTO ".toList ++ (name ++ body)) =
      (source.map fun source => Statement.insert
        ⟨String.ofList name, source, (findKeyword duplicateWords body).isSome⟩).mapError
          (.malformed .insert) := by
  rw [parse_insert_word hname.nonempty hname.word hword hne hlast hsource, hname.lowerCase]

/-- No source of an insertion starts with a minus sign. -/
theorem insertSource_minus (rest : List Char) :
    insertSource ('-' :: rest) = .error (.ofRest ('-' :: rest)) := by
  have hset : Reader.opening "set" ('-' :: rest) = .error ('-' :: rest) :=
    Reader.bind_of_error (Reader.keyword_of_none (by simp [Reader.dropWord?]))
  have hvalues : Reader.opening "values" ('-' :: rest) = .error ('-' :: rest) :=
    Reader.bind_of_error (Reader.keyword_of_none (by simp [Reader.dropWord?]))
  rw [insertSource, if_neg (by simp), if_neg (by simp)]
  simp only [hset, hvalues]
  rfl

/-- An INSERT with a minus sign behind the name of its table is of a known kind, but malformed. -/
theorem parse_insert_minus (hname : Plain name) (hne : body ≠ [])
    (hlast : ∀ d ∈ body.getLast?, isWhite d = false ∧ d ≠ ';') :
    ∃ cause, parseText ("INSERT INTO ".toList ++ (name ++ '-' :: body)) =
      .error (.malformed .insert cause) := by
  have hlast' : ∀ d ∈ ('-' :: body).getLast?, isWhite d = false ∧ d ≠ ';' := by
    obtain ⟨c, cs, rfl⟩ := List.exists_cons_of_ne_nil hne
    rwa [List.getLast?_cons_cons]
  have hpos : 0 < ((findKeyword duplicateWords ('-' :: body)).map (·.1)).getD
      ('-' :: body).length := by
    cases hfound : findKeyword duplicateWords ('-' :: body) with
    | none => simp
    | some place => exact pos_start_of_findKeyword (by decide) hfound
  obtain ⟨n, hn⟩ := Nat.exists_eq_succ_of_ne_zero (Nat.ne_of_gt hpos)
  obtain ⟨rest, hrest⟩ := trim_cons (c := '-') (by decide) (body.take n)
  have hsource : insertSource (trim (('-' :: body).take (((findKeyword duplicateWords
      ('-' :: body)).map (·.1)).getD ('-' :: body).length))) = .error (.ofRest ('-' :: rest)) := by
    rw [hn, List.take_succ_cons, hrest]
    exact insertSource_minus rest
  exact ⟨_, parse_insert hname (by simp; decide) (by simp) hlast' hsource⟩

end

/-! ## SELECT -/

section
variable {name tail : List Char}

end

end RecordShelf.Sql

import RecordShelf.Proofs.Sql.UpdateParts

/-!
# Names of tables

A SELECT, UPDATE, DELETE or CREATE TABLE acts on the table whose name stands at one place of its text.
The name is the whole run of word characters there, in lower case. What ends the run is not looked
at: a minus sign or a point ends a name like a blank does.
-/

namespace RecordShelf.Sql
open Text

/-- The table that a SELECT, UPDATE, DELETE or CREATE TABLE acts on. -/
def Statement.table? : Statement → Option String
  | .select s => some s.table
  | .update s => some s.table
  | .delete s => some s.table
  | .createTable s => some s.name
  | .insert _ | .showTables => none

/-! ## Names at the front of a text -/

/-- A name with its word, bare or between backticks. A bare word does not go on behind the name. -/
structure NameAt (cs word after : List Char) : Prop where
  nonempty : word ≠ []
  isWord : ∀ c ∈ word, isWord c = true
  written : (cs = word ++ after ∧ ∀ c ∈ after.head?, Text.isWord c = false) ∨
    cs = '`' :: (word ++ '`' :: after)

/-- White space and opening parentheses end a whole name. -/
def endsName (c : Char) : Bool := isWhite c || c == '('

/-- The whole name at the front of a text. -/
def nameToken (cs : List Char) : List Char := cs.takeWhile fun c => !endsName c

/-- The codes of white space. -/
def whiteCodes : List ℕ :=
  List.range' 9 5 ++ [0x20, 0x85, 0xa0, 0x1680] ++ List.range' 0x2000 11 ++
    [0x2028, 0x2029, 0x202f, 0x205f, 0x3000]

theorem isWord_whiteCodes : ∀ n ∈ whiteCodes, isWord (Char.ofNat n) = false := by decide +kernel

theorem isWord_of_isWhite {c : Char} (hc : isWhite c = true) : isWord c = false := by
  have hcode : c.toNat ∈ whiteCodes := by
    simp only [isWhite, Bool.or_eq_true, Bool.and_eq_true, decide_eq_true_eq, beq_iff_eq] at hc
    simp only [whiteCodes, List.mem_append, List.mem_range'_1, List.mem_cons, List.not_mem_nil,
      or_false]
    omega
  rw [← Char.ofNat_toNat c]
  exact isWord_whiteCodes _ hcode

theorem not_endsName_of_isWord {c : Char} (hc : isWord c = true) : endsName c = false := by
  rw [endsName, Bool.or_eq_false_iff, beq_eq_false_iff_ne]
  constructor
  · by_contra hwhite
    rw [isWord_of_isWhite (Bool.of_not_eq_false hwhite)] at hc
    exact absurd hc (by decide)
  · exact (calm_of_isWord hc).opens

theorem NameAt.token_iff {cs word after : List Char} (h : NameAt cs word after) :
    nameToken cs ++ after = cs ↔ ∀ c ∈ after.head?, endsName c = true := by
  obtain ⟨written, rfl, hwritten⟩ : ∃ written, cs = written ++ after ∧
      ∀ c ∈ written, endsName c = false := by
    rcases h.written with ⟨rfl, -⟩ | rfl
    · exact ⟨word, rfl, fun c hc => not_endsName_of_isWord (h.isWord c hc)⟩
    · refine ⟨'`' :: (word ++ ['`']), by simp, fun c hc => ?_⟩
      rcases List.mem_cons.1 hc with rfl | hc
      · decide
      · rcases List.mem_append.1 hc with hc | hc
        · exact not_endsName_of_isWord (h.isWord c hc)
        · obtain rfl := List.mem_singleton.1 hc
          decide
  rw [nameToken, List.takeWhile_append_of_pos fun c hc => by simp [hwritten c hc],
    List.append_left_inj]
  cases after with
  | nil => simp
  | cons c after => simp [List.takeWhile_cons]

namespace Reader
variable {cs after : List Char} {name : String}

theorem run1_ok_iff {p : Char → Bool} {word : List Char} : run1 p cs = .ok (word, after) ↔
    word ≠ [] ∧ (∀ c ∈ word, p c = true) ∧ cs = word ++ after ∧ ∀ c ∈ after.head?, p c = false := by
  constructor
  · intro h
    obtain ⟨hsplit, hword⟩ := run1_ok h
    rw [run1] at h
    split_ifs at h with hempty
    obtain ⟨rfl, rfl⟩ := Prod.mk.inj (Except.ok.inj h)
    refine ⟨by simpa using hempty, hword, hsplit, fun c hc => ?_⟩
    have := List.head?_dropWhile_not p cs
    rw [Option.mem_def.1 hc] at this
    simpa using this
  · rintro ⟨hne, hword, rfl, hafter⟩
    exact run1_append hne hword hafter

theorem identifier_ok_iff : identifier cs = .ok (name, after) ↔
    ∃ word, NameAt cs word after ∧ name = String.ofList (lowerCase word) := by
  constructor
  · intro h
    obtain ⟨word, rest, hword, h⟩ := bind_ok h
    obtain ⟨rfl, rfl⟩ := pure_ok h
    refine ⟨word, ?_, rfl⟩
    rcases either_ok hword with hticked | hbare
    · obtain ⟨_, opened, hopen, h⟩ := bind_ok hticked
      obtain ⟨inner, closed, hinner, h⟩ := bind_ok h
      obtain ⟨_, last, hclose, h⟩ := bind_ok h
      obtain ⟨rfl, rfl⟩ := pure_ok h
      obtain ⟨hne, hword, hsplit, -⟩ := run1_ok_iff.1 hinner
      refine ⟨hne, hword, Or.inr ?_⟩
      rw [char_ok hopen, hsplit, char_ok hclose]
    · obtain ⟨hne, hword, hsplit, hafter⟩ := run1_ok_iff.1 hbare
      exact ⟨hne, hword, Or.inl ⟨hsplit, hafter⟩⟩
  · rintro ⟨word, ⟨hne, hword, hwritten⟩, rfl⟩
    have hread : either (do
        let _ ← char '`'
        let name ← bareName
        let _ ← char '`'
        return name) bareName cs = .ok (word, after) := by
      rcases hwritten with ⟨rfl, hafter⟩ | rfl
      · have htick : char '`' (word ++ after) = .error (word ++ after) := by
          obtain ⟨c, tail, rfl⟩ := List.exists_cons_of_ne_nil hne
          have hc : c ≠ '`' := (calm_of_isWord (hword c List.mem_cons_self)).backtick
          simp [char, satisfy, hc]
        rw [either_of_error (bind_of_error htick)]
        exact run1_append hne hword hafter
      · have hopen : char '`' ('`' :: (word ++ '`' :: after)) = .ok ('`', word ++ '`' :: after) := rfl
        have hinner : bareName (word ++ '`' :: after) = .ok (word, '`' :: after) :=
          run1_append hne hword (forall_head?_cons (by decide) after)
        have hclose : char '`' ('`' :: after) = .ok ('`', after) := rfl
        apply either_of_ok
        rw [bind_of_ok hopen, bind_of_ok hinner, bind_of_ok hclose]
        rfl
    rw [identifier, bind_of_ok hread]
    rfl

end Reader

/-! ## Where the name stands -/

namespace StatementKind

/-- What stands between the leading words of a statement and the name of its table. -/
def beforeName : StatementKind → Option (Reader Unit)
  | .select => some fun rest =>
    match findKeyword ["from".toList] rest with
    | some (_, stop) => (do let _ ← Reader.blanks; return () : Reader Unit) (rest.drop stop)
    | none => .error rest
  | .update => some do
    let _ ← Reader.blanks
    return ()
  | .delete => some do
    let _ ← Reader.blanks1
    Reader.keyword "from"
    let _ ← Reader.blanks1
    return ()
  | .createTable => some do
    let _ ← Reader.blanks1
    let _ ← Reader.optional Reader.ifNotExists
    return ()
  | .insert | .showTables => none

/-- What follows the name can be read. -/
def Reads : StatementKind → List Char → Prop
  | .select, after =>
    (∃ limit, optionalPart limitOf ((Clauses.ofText after).body? .limit) = .ok limit) ∧
      ∃ offset, optionalPart wholeOperand ((Clauses.ofText after).body? .offset) = .ok offset
  | .update, after => ∃ place, findKeyword ["set".toList] after = some place
  | _, _ => True

end StatementKind

/-- The kind of a statement and its text from the name of its table on. -/
def nameText? (cs : List Char) : Option (StatementKind × List Char) :=
  match Reader.leading (bareText cs) with
  | .ok (kind, rest) => do
    let before ← kind.beforeName
    let (_, named) ← (before rest).toOption
    return (kind, named)
  | .error _ => none

/-! ## Statements that can be read -/

section
variable {rest : List Char} {name : String}

theorem Part.ofReader_of_ok {α : Type} {result : Except (List Char) α} {a : α}
    (h : result = .ok a) : Part.ofReader result = .ok a := by
  rw [h]
  rfl

theorem parseSelect_of_ok {start stop : ℕ} {after : List Char} {limit : Option Limit}
    {offset : Option Operand} (hfrom : findKeyword ["from".toList] rest = some (start, stop))
    (htable : Reader.tableName (rest.drop stop) = .ok (name, after))
    (hlimit : optionalPart limitOf ((Clauses.ofText after).body? .limit) = .ok limit)
    (hoffset : optionalPart wholeOperand ((Clauses.ofText after).body? .offset) = .ok offset) :
    parseSelect rest = .ok {
      columns := columnsOf (rest.take start)
      table := name
      conditions := conditionsOf ((Clauses.ofText after).body? .where_)
      order := orderOf ((Clauses.ofText after).body? .orderBy)
      limit := limit
      offset := offset } := by
  rw [parseSelect, hfrom]
  dsimp only
  rw [Part.ofReader_of_ok htable, ok_bind]
  dsimp only
  rw [hlimit, ok_bind, hoffset, ok_bind]
  rfl

theorem parseSelect_ok {s : Select} (h : parseSelect rest = .ok s) :
    ∃ start stop name after limit offset, findKeyword ["from".toList] rest = some (start, stop) ∧
      Reader.tableName (rest.drop stop) = .ok (name, after) ∧
      optionalPart limitOf ((Clauses.ofText after).body? .limit) = .ok limit ∧
      optionalPart wholeOperand ((Clauses.ofText after).body? .offset) = .ok offset ∧
      s = {
        columns := columnsOf (rest.take start)
        table := name
        conditions := conditionsOf ((Clauses.ofText after).body? .where_)
        order := orderOf ((Clauses.ofText after).body? .orderBy)
        limit := limit
        offset := offset } := by
  rw [parseSelect] at h
  split at h
  · rename_i start stop hfrom
    obtain ⟨⟨name, after⟩, htable, h⟩ := ok_of_bind h
    obtain ⟨limit, hlimit, h⟩ := ok_of_bind h
    obtain ⟨offset, hoffset, h⟩ := ok_of_bind h
    exact ⟨start, stop, name, after, limit, offset, hfrom, Part.ofReader_ok htable, hlimit, hoffset,
      (Except.ok.inj h).symm⟩
  · exact absurd h (by simp [throw_eq_error])

theorem parseSelect_iff : (∃ s, parseSelect rest = .ok s ∧ s.table = name) ↔
    ∃ start stop after, findKeyword ["from".toList] rest = some (start, stop) ∧
      Reader.tableName (rest.drop stop) = .ok (name, after) ∧ StatementKind.select.Reads after := by
  constructor
  · rintro ⟨s, h, rfl⟩
    obtain ⟨start, stop, name, after, limit, offset, hfrom, htable, hlimit, hoffset, rfl⟩ :=
      parseSelect_ok h
    exact ⟨start, stop, after, hfrom, htable, ⟨limit, hlimit⟩, offset, hoffset⟩
  · rintro ⟨start, stop, after, hfrom, htable, ⟨limit, hlimit⟩, offset, hoffset⟩
    exact ⟨_, parseSelect_of_ok hfrom htable hlimit hoffset, rfl⟩

theorem parseUpdate_iff : (∃ s, parseUpdate rest = .ok s ∧ s.table = name) ↔
    ∃ after, Reader.tableName rest = .ok (name, after) ∧ StatementKind.update.Reads after := by
  constructor
  · rintro ⟨s, h, rfl⟩
    obtain ⟨table, after, start, stop, htable, hset, rfl⟩ := parseUpdate_ok h
    exact ⟨after, htable, (start, stop), hset⟩
  · rintro ⟨after, htable, ⟨start, stop⟩, hset⟩
    rw [parseUpdate, Part.ofReader_of_ok htable, ok_bind]
    dsimp only
    rw [hset]
    exact ⟨_, rfl, rfl⟩

theorem parseDelete_iff : (∃ s, parseDelete rest = .ok s ∧ s.table = name) ↔
    ∃ after, Reader.deleteTable rest = .ok (name, after) := by
  constructor
  · rintro ⟨s, h, rfl⟩
    obtain ⟨⟨table, after⟩, htable, h⟩ := ok_of_bind h
    obtain rfl := Except.ok.inj h
    exact ⟨after, Part.ofReader_ok htable⟩
  · rintro ⟨after, htable⟩
    rw [parseDelete, Part.ofReader_of_ok htable, ok_bind]
    exact ⟨_, rfl, rfl⟩

theorem parseCreateTable_iff : (∃ s, parseCreateTable rest = .ok s ∧ s.name = name) ↔
    ∃ guarded after, Reader.createdTable rest = .ok (⟨name, guarded⟩, after) := by
  constructor
  · rintro ⟨s, h, rfl⟩
    obtain ⟨⟨created, after⟩, htable, h⟩ := ok_of_bind h
    obtain rfl := Except.ok.inj h
    exact ⟨created.ifNotExists, after, Part.ofReader_ok htable⟩
  · rintro ⟨guarded, after, htable⟩
    rw [parseCreateTable, Part.ofReader_of_ok htable, ok_bind]
    exact ⟨_, rfl, rfl⟩

end

theorem exists_ok_map_iff {ε α β : Type} {x : Except ε α} {f : α → β} {p : β → Prop} :
    (∃ b, f <$> x = .ok b ∧ p b) ↔ ∃ a, x = .ok a ∧ p (f a) := by
  constructor
  · rintro ⟨b, h, hp⟩
    obtain ⟨a, ha, rfl⟩ := ok_of_map h
    exact ⟨a, ha, hp⟩
  · rintro ⟨a, rfl, hp⟩
    exact ⟨f a, rfl, hp⟩

/-- The name at the place where the name of the table belongs. -/
def NamedAt (kind : StatementKind) (rest : List Char) (name : String) : Prop :=
  ∃ before named word after, kind.beforeName = some before ∧ before rest = .ok ((), named) ∧
    NameAt named word after ∧ kind.Reads after ∧ name = String.ofList (lowerCase word)

section
variable {rest : List Char} {name : String}

theorem namedAt_select : NamedAt .select rest name ↔
    ∃ start stop after, findKeyword ["from".toList] rest = some (start, stop) ∧
      Reader.tableName (rest.drop stop) = .ok (name, after) ∧ StatementKind.select.Reads after := by
  constructor
  · rintro ⟨before, named, word, after, hkind, hbefore, hname, hreads, rfl⟩
    obtain rfl := Option.some.inj hkind
    dsimp only at hbefore
    split at hbefore
    · rename_i start stop hfrom
      obtain ⟨_, mid, hblanks, hpure⟩ := Reader.bind_ok hbefore
      obtain ⟨-, rfl⟩ := Reader.pure_ok hpure
      refine ⟨start, stop, after, hfrom, ?_, hreads⟩
      rw [Reader.tableName, Reader.bind_of_ok hblanks]
      exact Reader.identifier_ok_iff.2 ⟨word, hname, rfl⟩
    · exact absurd hbefore (by simp)
  · rintro ⟨start, stop, after, hfrom, htable, hreads⟩
    obtain ⟨_, named, hblanks, hname⟩ := Reader.bind_ok htable
    obtain ⟨word, hword, rfl⟩ := Reader.identifier_ok_iff.1 hname
    refine ⟨_, named, word, after, rfl, ?_, hword, hreads, rfl⟩
    rw [hfrom]
    exact Reader.bind_of_ok hblanks

theorem namedAt_update : NamedAt .update rest name ↔
    ∃ after, Reader.tableName rest = .ok (name, after) ∧ StatementKind.update.Reads after := by
  constructor
  · rintro ⟨before, named, word, after, hkind, hbefore, hname, hreads, rfl⟩
    obtain rfl := Option.some.inj hkind
    obtain ⟨_, mid, hblanks, hpure⟩ := Reader.bind_ok hbefore
    obtain ⟨-, rfl⟩ := Reader.pure_ok hpure
    refine ⟨after, ?_, hreads⟩
    rw [Reader.tableName, Reader.bind_of_ok hblanks]
    exact Reader.identifier_ok_iff.2 ⟨word, hname, rfl⟩
  · rintro ⟨after, htable, hreads⟩
    obtain ⟨_, named, hblanks, hname⟩ := Reader.bind_ok htable
    obtain ⟨word, hword, rfl⟩ := Reader.identifier_ok_iff.1 hname
    exact ⟨_, named, word, after, rfl, Reader.bind_of_ok hblanks, hword, hreads, rfl⟩

theorem namedAt_delete : NamedAt .delete rest name ↔
    ∃ after, Reader.deleteTable rest = .ok (name, after) := by
  constructor
  · rintro ⟨before, named, word, after, hkind, hbefore, hname, -, rfl⟩
    obtain rfl := Option.some.inj hkind
    obtain ⟨_, _, hfirst, hbefore⟩ := Reader.bind_ok hbefore
    obtain ⟨_, _, hfrom, hbefore⟩ := Reader.bind_ok hbefore
    obtain ⟨_, _, hblanks, hpure⟩ := Reader.bind_ok hbefore
    obtain ⟨-, rfl⟩ := Reader.pure_ok hpure
    refine ⟨after, ?_⟩
    rw [Reader.deleteTable, Reader.bind_of_ok hfirst, Reader.bind_of_ok hfrom,
      Reader.bind_of_ok hblanks]
    exact Reader.identifier_ok_iff.2 ⟨word, hname, rfl⟩
  · rintro ⟨after, htable⟩
    obtain ⟨_, _, hfirst, htable⟩ := Reader.bind_ok htable
    obtain ⟨_, _, hfrom, htable⟩ := Reader.bind_ok htable
    obtain ⟨_, named, hblanks, hname⟩ := Reader.bind_ok htable
    obtain ⟨word, hword, rfl⟩ := Reader.identifier_ok_iff.1 hname
    refine ⟨_, named, word, after, rfl, ?_, hword, trivial, rfl⟩
    rw [Reader.bind_of_ok hfirst, Reader.bind_of_ok hfrom, Reader.bind_of_ok hblanks]
    rfl

theorem namedAt_createTable : NamedAt .createTable rest name ↔
    ∃ guarded after, Reader.createdTable rest = .ok (⟨name, guarded⟩, after) := by
  constructor
  · rintro ⟨before, named, word, after, hkind, hbefore, hname, -, rfl⟩
    obtain rfl := Option.some.inj hkind
    obtain ⟨_, _, hblanks, hbefore⟩ := Reader.bind_ok hbefore
    obtain ⟨guarded, _, hguard, hpure⟩ := Reader.bind_ok hbefore
    obtain ⟨-, rfl⟩ := Reader.pure_ok hpure
    refine ⟨guarded.isSome, after, ?_⟩
    rw [Reader.createdTable, Reader.bind_of_ok hblanks, Reader.bind_of_ok hguard,
      Reader.bind_of_ok (Reader.identifier_ok_iff.2 ⟨word, hname, rfl⟩)]
    rfl
  · rintro ⟨_, after, htable⟩
    obtain ⟨_, _, hblanks, htable⟩ := Reader.bind_ok htable
    obtain ⟨_, named, hguard, htable⟩ := Reader.bind_ok htable
    obtain ⟨_, _, hname, hpure⟩ := Reader.bind_ok htable
    obtain ⟨hcreated, rfl⟩ := Reader.pure_ok hpure
    obtain ⟨word, hword, hwritten⟩ := Reader.identifier_ok_iff.1 hname
    obtain ⟨rfl, -⟩ := CreateTable.mk.inj hcreated
    refine ⟨_, named, word, _, rfl, ?_, hword, trivial, hwritten⟩
    rw [Reader.bind_of_ok hblanks, Reader.bind_of_ok hguard]
    rfl

theorem parseBody_table_iff (kind : StatementKind) :
    (∃ s, parseBody kind rest = .ok s ∧ s.table? = some name) ↔ NamedAt kind rest name := by
  have hnone : ∀ {before : Reader Unit}, none ≠ some before := fun h => absurd h (by simp)
  cases kind with
  | select => simp only [parseBody, exists_ok_map_iff, Statement.table?, Option.some.injEq,
      parseSelect_iff, namedAt_select]
  | update => simp only [parseBody, exists_ok_map_iff, Statement.table?, Option.some.injEq,
      parseUpdate_iff, namedAt_update]
  | delete => simp only [parseBody, exists_ok_map_iff, Statement.table?, Option.some.injEq,
      parseDelete_iff, namedAt_delete]
  | createTable => simp only [parseBody, exists_ok_map_iff, Statement.table?, Option.some.injEq,
      parseCreateTable_iff, namedAt_createTable]
  | insert =>
    simp only [parseBody, exists_ok_map_iff, Statement.table?]
    constructor
    · rintro ⟨_, _, h⟩
      exact absurd h (by simp)
    · rintro ⟨_, _, _, _, hkind, -⟩
      exact absurd hkind hnone
  | showTables =>
    constructor
    · rintro ⟨s, h, htable⟩
      obtain rfl := Except.ok.inj h
      exact absurd htable (by simp [Statement.table?])
    · rintro ⟨_, _, _, _, hkind, -⟩
      exact absurd hkind hnone

end

/-- The table that a statement acts on has the name, in lower case, that stands at its place in the
text, and any text with a name there is read, as far as the rest can be. The name is a whole word, but
it is the whole name that the text gives only if white space, a parenthesis or the end follows. -/
theorem table_iff_name (text name : String) :
    ((∃ s, parse text = .ok s ∧ s.table? = some name) ↔
      ∃ kind named word after, nameText? text.toList = some (kind, named) ∧
        NameAt named word after ∧ kind.Reads after ∧ name = String.ofList (lowerCase word)) ∧
    ∀ named word after, NameAt named word after →
      (nameToken named ++ after = named ↔ ∀ c ∈ after.head?, endsName c = true) := by
  refine ⟨?_, fun _ _ _ => NameAt.token_iff⟩
  constructor
  · rintro ⟨s, hparse, htable⟩
    obtain ⟨kind, rest, hleading, hbody⟩ := parseText_ok_iff.1 hparse
    obtain ⟨before, named, word, after, hkind, hbefore, hname, hreads, rfl⟩ :=
      (parseBody_table_iff kind).1 ⟨s, hbody, htable⟩
    refine ⟨kind, named, word, after, ?_, hname, hreads, rfl⟩
    simp [nameText?, hleading, hkind, hbefore, Except.toOption]
  · rintro ⟨kind, named, word, after, hplace, hname, hreads, rfl⟩
    rw [nameText?] at hplace
    split at hplace
    · rename_i found rest hleading
      obtain ⟨before, hkind, hplace⟩ := Option.bind_eq_some_iff.1 hplace
      obtain ⟨⟨_, there⟩, hbefore, hplace⟩ := Option.bind_eq_some_iff.1 hplace
      obtain ⟨rfl, rfl⟩ := Prod.mk.inj (Option.some.inj hplace)
      have hread : before rest = .ok ((), there) := by
        cases hrun : before rest with
        | error place => exact absurd hbefore (by simp [hrun, Except.toOption])
        | ok result =>
          rw [hrun] at hbefore
          exact congrArg Except.ok (Option.some.inj hbefore)
      obtain ⟨s, hbody, htable⟩ := (parseBody_table_iff found).2
        ⟨before, there, word, after, hkind, hread, hname, hreads, rfl⟩
      exact ⟨s, parseText_ok_iff.2 ⟨found, rest, hleading, hbody⟩, htable⟩
    · exact absurd hplace (by simp)

/-- A DELETE whose name goes on behind a minus sign is read as one on another table. -/
theorem table_of_prefix :
    parse "DELETE FROM roles_-5" = .ok (.delete ⟨"roles_", []⟩) ∧
    nameText? "DELETE FROM roles_-5".toList = some (.delete, "roles_-5".toList) ∧
    NameAt "roles_-5".toList "roles_".toList "-5".toList ∧
    nameToken "roles_-5".toList = "roles_-5".toList := by
  have hword : "roles_".toList.all isWord = true := by decide +kernel
  have hname : NameAt "roles_-5".toList "roles_".toList "-5".toList := by
    refine ⟨by decide, List.all_eq_true.1 hword, Or.inl ⟨rfl, fun c hc => ?_⟩⟩
    obtain rfl : '-' = c := Option.some.inj hc
    decide
  exact ⟨by decide +kernel, by decide +kernel, hname, by decide +kernel⟩

end RecordShelf.Sql

import RecordShelf.Proofs.Database.Lookup
import RecordShelf.Proofs.Names
import RecordShelf.Proofs.Query.Upsert
import RecordShelf.Proofs.Sql.Statements

/-!
# Reading what a writer wrote

The writers of roles, nicknames and ban lists put the number of a chat into the name of a table. A
number that is not negative gives a plain name, and then the value goes under the key of the user
and is read from there. A negative number gives no statement that can be read, so that the writer
succeeds and does nothing.
-/

namespace RecordShelf
open Sql Text

/-! ## Tables of chats -/

/-- A beginning for the names of tables that a number follows. -/
structure TablePrefix (pre : String) : Prop where
  plain : Plain pre.toList
  allowed : pre.toList.all (Names.allows .table) = true
  underscore : '_' ∈ pre.toList
  short : pre.utf8ByteSize ≤ 20

theorem tablePrefix_roles : TablePrefix "roles_" :=
  ⟨.of_all (by decide) (by decide), by decide, by decide, by decide⟩

theorem tablePrefix_nicknames : TablePrefix "nicknames_" :=
  ⟨.of_all (by decide) (by decide), by decide, by decide, by decide⟩

theorem idText_of_nonneg {n : Int64} (hn : 0 ≤ n) :
    idText n = String.ofList (decimalDigits n.toInt.natAbs) := by
  have hint : ¬n.toInt < 0 := not_lt.2 (Int64.le_iff_toInt_le.1 hn)
  rw [idText, decimalInt, if_neg hint]

theorem idText_of_neg {n : Int64} (hn : n < 0) :
    idText n = String.ofList ('-' :: decimalDigits n.toInt.natAbs) := by
  have hint : n.toInt < 0 := Int64.lt_iff_toInt_lt.1 hn
  rw [idText, decimalInt, if_pos hint]

namespace TablePrefix
variable {pre : String} {n : Int64}

theorem isTable (hpre : TablePrefix pre) (hn : 0 ≤ n) : Names.isTable (pre ++ idText n) = true := by
  rw [idText_of_nonneg hn]
  refine Names.isTable_append hpre.allowed hpre.underscore isDigit_of_mem_digits ?_
  have hshort := hpre.short
  have hdigits := length_digits_le n
  have hmax : Names.maxLength = 255 := rfl
  omega

theorem plain_append (hpre : TablePrefix pre) (hn : 0 ≤ n) :
    Plain (pre ++ idText n).toList := by
  rw [idText_of_nonneg hn, String.toList_append, String.toList_ofList]
  refine hpre.plain.append (fun c hc => ?_) fun c hc => ?_
  · simp [isAsciiWord, Char.isAlphanum, isDigit_of_mem_digits c hc]
  · exact isUpper_of_isDigit (isDigit_of_mem_digits c hc)

theorem not_autoIncrement (hpre : TablePrefix pre) (text : String) {s : Shelf}
    (hs : s.autoIncrement = Settings.default.autoIncrement) :
    s.isAutoIncrement (pre ++ text) = false := by
  have hne : pre ++ text ≠ "tickets" := by
    intro heq
    have hmem : '_' ∈ (pre ++ text).toList := by
      rw [String.toList_append]
      exact List.mem_append_left _ hpre.underscore
    rw [heq] at hmem
    exact absurd hmem (by decide)
  rw [Shelf.isAutoIncrement, hs]
  simp [Settings.default, hne]

end TablePrefix

/-! ## The statements of the writers -/

/-- What follows the name of the table in the statement of a writer. -/
def upsertTail (column : String) : String :=
  " (user_id, " ++ column ++ ") VALUES (?, ?) ON DUPLICATE KEY UPDATE " ++ column ++ " = VALUES(" ++
    column ++ ")"

/-- The columns that the writers write. -/
def writtenColumns : List String := ["role_id", "nickname", "blocked_users"]

theorem upsertTail_source : ∀ column ∈ writtenColumns,
    (findKeyword duplicateWords (upsertTail column).toList).isSome = true ∧
    insertSource (Text.trim ((upsertTail column).toList.take
      (((findKeyword duplicateWords (upsertTail column).toList).map (·.1)).getD
        (upsertTail column).toList.length))) =
      .ok (.columns ["user_id", column]
        (some [.placeholder .positional, .placeholder .positional])) := by
  decide +kernel

theorem upsertTail_ends : ∀ column ∈ writtenColumns,
    (upsertTail column).toList.head? = some ' ' ∧
    (upsertTail column).toList.getLast? = some ')' := by
  decide +kernel

section
variable {pre column : String} {n : Int64}

theorem parse_upsert (hpre : TablePrefix pre) (hcolumn : column ∈ writtenColumns) (hn : 0 ≤ n) :
    parse ("INSERT INTO " ++ (pre ++ idText n ++ upsertTail column)) =
      .ok (.insert (Query.upsert (pre ++ idText n) column)) := by
  obtain ⟨hfound, hsource⟩ := upsertTail_source column hcolumn
  obtain ⟨hhead, hlast⟩ := upsertTail_ends column hcolumn
  have hne : (upsertTail column).toList ≠ [] := by
    intro hnil
    rw [hnil] at hhead
    exact absurd hhead (by simp)
  have hparse := parse_insert (hpre.plain_append hn) (by rw [hhead]; simp; decide) hne
    (by rw [hlast]; simp; decide) hsource
  rw [parse, String.toList_append, String.toList_append, hparse, hfound, String.ofList_toList]
  rfl

theorem parse_upsert_neg (hpre : TablePrefix pre) (hcolumn : column ∈ writtenColumns)
    (hn : n < 0) : ∃ cause, parse ("INSERT INTO " ++ (pre ++ idText n ++ upsertTail column)) =
      .error (.malformed .insert cause) := by
  obtain ⟨-, hlast⟩ := upsertTail_ends column hcolumn
  have hsplit : (pre ++ idText n ++ upsertTail column).toList = pre.toList ++
      '-' :: (decimalDigits n.toInt.natAbs ++ (upsertTail column).toList) := by
    rw [idText_of_neg hn, String.toList_append, String.toList_append, String.toList_ofList,
      List.append_assoc]
    rfl
  have hlast' : (decimalDigits n.toInt.natAbs ++ (upsertTail column).toList).getLast? =
      some ')' := by
    rw [List.getLast?_append, hlast]
    rfl
  have hne : decimalDigits n.toInt.natAbs ++ (upsertTail column).toList ≠ [] := by
    simp [decimalDigits_ne_nil]
  obtain ⟨cause, hparse⟩ := parse_insert_minus hpre.plain hne (by rw [hlast']; simp; decide)
  exact ⟨cause, by rw [parse, String.toList_append, hsplit, hparse]⟩

end

/-! ## Runs of the writers -/

/-- A database under the default settings, whatever its data directory. -/
structure Database.Standard (db : Database) : Prop where
  settings : ∃ directory, db.settings = { Settings.default with dataDirectory := directory }
  autoIncrement : db.shelf.autoIncrement = Settings.default.autoIncrement
  caches : db.caches.Distinct
  records : db.records.Distinct

theorem Database.standard_create (directory : String) (process now : ℕ) (root : Option Node) :
    (create { Settings.default with dataDirectory := directory } process now root).Standard :=
  ⟨⟨directory, rfl⟩, rfl, Caches.distinct_create _ _, TimedCache.distinct_create _ _⟩

theorem Database.Standard.rules {db : Database} (hdb : db.Standard) :
    db.settings.rules = Settings.default.rules := by
  obtain ⟨directory, hsettings⟩ := hdb.settings
  rw [hsettings]
  rfl

namespace DatabaseM
variable {db db' : Database} {pre column : String} {n user : Int64} {value : Json}
  {i : Invalidation} {result : Query.Result}

/-- The write of one column of a user. -/
def writeColumn (pre column : String) (n user : Int64) (value : Json) (i : Invalidation) :
    DatabaseM Query.Result :=
  executeWrite ("INSERT INTO " ++ (pre ++ idText n ++ upsertTail column))
    (.positional [.ofInt64 user, value]) [i]

theorem setUserRole_eq (conference user role : Int64) : setUserRole conference user role =
    writeColumn "roles_" "role_id" conference user (.ofInt64 role) (.role conference user) := by
  rw [setUserRole, String.append_assoc, String.append_assoc]
  rfl

theorem setUserNickname_eq (peer user : Int64) (nickname : String) :
    setUserNickname peer user nickname =
      writeColumn "nicknames_" "nickname" peer user (.string nickname) (.nickname peer user) := by
  rw [setUserNickname, String.append_assoc, String.append_assoc]
  rfl

end DatabaseM

end RecordShelf

import RecordShelf.Proofs.Cache.Keys
import RecordShelf.Proofs.Names
import RecordShelf.Proofs.Query.Changes
import RecordShelf.Proofs.Query.Delete
import RecordShelf.Settings.Basic

/-!
# Numbered tables

An INSERT into a numbered table takes the next number of the table's counter, writes it into the
counter's file and stores its record under it, whatever is there. In a run that starts without
records the counter is ahead of all keys, and the numbers of the INSERTs are one, two, three and so
on. In a table with records that the counter does not know of, an INSERT can replace one of them.
-/

namespace RecordShelf

theorem Json.ofInt64_ofNat {n : ℕ} (hn : n < 2 ^ 63) : Json.ofInt64 (.ofNat n) = .ofNat n := by
  have hint : (Int64.ofNat n).toInt = n := Int64.toInt_ofNat_of_lt hn
  have hfits : fits64 n := ⟨by omega, by omega⟩
  rw [ofInt64, ofNat, JsonNumber.ofInt64, JsonNumber.ofNat, dif_pos hfits]
  simp only [hint]

theorem idText_ofNat {n : ℕ} (hn : n < 2 ^ 63) :
    idText (.ofNat n) = String.ofList (decimalDigits n) := by
  have hint : (Int64.ofNat n).toInt = n := Int64.toInt_ofNat_of_lt hn
  rw [idText, hint, decimalInt, if_neg (by omega), Int.natAbs_natCast]

theorem ofList_ne_counterKey {cs : List Char} (h : '_' ∉ cs) : String.ofList cs ≠ counterKey := by
  intro hkey
  apply h
  rw [← String.toList_ofList (l := cs), hkey]
  decide

/-- No number is written like the key of the counter. -/
theorem idText_ne_counterKey (n : Int64) : idText n ≠ counterKey :=
  ofList_ne_counterKey (underscore_not_mem_decimalInt n.toInt)

namespace Shelf
variable {s s' : Shelf} {table : String}

/-- The number that the counter of a table gives next. -/
def nextNumber (s : Shelf) (table : String) : Int64 :=
  ShelfM.lastId (s.record (table, counterKey)) + 1

/-- The record of the counter after a number. -/
def counterRecord (id : Int64) : Record := [(counterKey, .ofInt64 id)]

theorem storable_counterRecord (id : Int64) : Storable (counterRecord id) :=
  storable_singleton counterKey trivial rfl

theorem lastId_counterRecord (id : Int64) : ShelfM.lastId (some (counterRecord id)) = id := by
  have hget : (counterRecord id).get? counterKey = some (.number (.ofInt64 id)) := if_pos rfl
  rw [ShelfM.lastId, Option.bind_some, hget]
  dsimp only
  rw [JsonNumber.toInt64?_ofInt64, Option.getD_some]

/-- A record has been stored under a number of a table, and the counter stands at the number. -/
structure Numbers (s s' : Shelf) (table : String) (id : Int64) (r : Record) : Prop where
  counter : s'.content (table, counterKey) = some (RecordFile.encode (counterRecord id))
  record : s'.content (table, idText id) = some (RecordFile.encode (r.insert "id" (.ofInt64 id)))
  others : ∀ place, place ≠ (table, counterKey) → place ≠ (table, idText id) →
    s'.content place = s.content place

theorem Numbers.nextNumber {id : Int64} {r : Record} (h : s.Numbers s' table id r) :
    s'.nextNumber table = id + 1 := by
  rw [Shelf.nextNumber, Shelf.record, h.counter, Option.bind_some,
    RecordFile.decode_encode (storable_counterRecord id), lastId_counterRecord]

end Shelf

namespace ShelfM
open RecordShelf.Shelf
variable {s s' : Shelf} {table : String}

theorem writes_of_nextId {id : Int64} (h : (nextId table).run s = (.ok id, s')) :
    id = s.nextNumber table ∧ s.Writes s' (table, counterKey) (counterRecord id) := by
  rw [nextId] at h
  obtain ⟨counter, s₁, hread, hwrite⟩ := run_bind_ok h
  obtain ⟨hget, rfl⟩ := run_read_ok hread
  dsimp only at hwrite
  obtain ⟨_, s₂, hput, hreturn⟩ := run_bind_ok hwrite
  cases hreturn
  rw [nextNumber, record_of_get hget]
  exact ⟨rfl, writes_of_put hput⟩

end ShelfM

namespace Query
open Sql RecordShelf.Shelf
variable {rules : Rules} {table key : String} {params : Params} {auto : List String} {s s' : Shelf}
  {q : Request} {i : Insert} {r : Record}

theorem numbers_of_insertNumbered {result : Result}
    (h : (insertNumbered table r).run s = (.ok result, s')) :
    result = inserted (.ofInt64 (s.nextNumber table)) ∧
      s.Numbers s' table (s.nextNumber table) r := by
  rw [insertNumbered] at h
  obtain ⟨id, s₁, hnext, h⟩ := run_bind_ok h
  obtain ⟨rfl, hcounter⟩ := ShelfM.writes_of_nextId hnext
  obtain ⟨_, s₂, hput, hreturn⟩ := run_bind_ok h
  cases hreturn
  have hwrites := ShelfM.writes_of_put hput
  have hne : (table, counterKey) ≠ (table, idText (s.nextNumber table)) := fun heq =>
    idText_ne_counterKey _ (congrArg Prod.snd heq).symm
  refine ⟨rfl, ?_, hwrites.here, fun place hplace hkey => ?_⟩
  · rw [hwrites.others _ hne, hcounter.here]
  · rw [hwrites.others _ hkey, hcounter.others _ hplace]

/-- Where the next number is a valid key, only the directory tree refuses a record. -/
theorem isIo_of_insertNumbered {e : Error} (htable : Names.isTable table = true)
    (hkey : Names.isKey (idText (s.nextNumber table)) = true)
    (h : (insertNumbered table r).run s = (.error e, s')) : e.IsIo := by
  rw [insertNumbered] at h
  cases hnext : (ShelfM.nextId table).run s with
  | mk outcome s₁ =>
    cases outcome with
    | error e₁ =>
      rw [run_bind_of_error hnext] at h
      obtain rfl := Except.error.inj (Prod.mk.inj h).1
      exact ShelfM.raises_nextId htable s e₁ s₁ hnext
    | ok id =>
      rw [run_bind_of_ok hnext] at h
      obtain ⟨rfl, -⟩ := ShelfM.writes_of_nextId hnext
      exact (Raises.bind (ShelfM.raises_put hkey htable _) fun _ => .pure _) s₁ e s' h

/-! ## One INSERT -/

theorem Request.run_insert (rules : Rules) (h : q.statement? = some (.insert i)) (s : Shelf) :
    (executeInsert rules q.stamp i q.params).run s = (q.outcome rules s, q.after rules s) := by
  rw [outcome, after, run_executeText h]
  rfl

/-- An INSERT into a numbered table fails before it does anything, or takes a number. -/
theorem insert_cases (hstatement : q.statement? = some (.insert i))
    (hauto : s.isAutoIncrement i.table = true) :
    (∃ e, q.outcome rules s = .error e ∧ q.after rules s = s) ∨
      ∃ r, insertRecord i q.params = .ok r ∧
        (insertNumbered i.table r).run s = (q.outcome rules s, q.after rules s) := by
  have hrun := Request.run_insert rules hstatement s
  rw [run_executeInsert] at hrun
  cases hrecord : insertRecord i q.params with
  | error e =>
    rw [hrecord] at hrun
    exact Or.inl ⟨e, (Prod.mk.inj hrun).1.symm, (Prod.mk.inj hrun).2.symm⟩
  | ok r =>
    rw [hrecord] at hrun
    dsimp only at hrun
    rw [if_pos hauto] at hrun
    split_ifs at hrun
    · exact Or.inl ⟨_, (Prod.mk.inj hrun).1.symm, (Prod.mk.inj hrun).2.symm⟩
    · exact Or.inr ⟨r, rfl, hrun⟩

theorem numbers_of_insert {result : Result} (hstatement : q.statement? = some (.insert i))
    (hauto : s.isAutoIncrement i.table = true) (h : q.outcome rules s = .ok result) :
    ∃ r, insertRecord i q.params = .ok r ∧
      result = inserted (.ofInt64 (s.nextNumber i.table)) ∧
      s.Numbers (q.after rules s) i.table (s.nextNumber i.table) r := by
  rcases insert_cases hstatement hauto with ⟨e, herror, -⟩ | ⟨r, hrecord, hrun⟩
  · exact absurd (h.symm.trans herror) (by simp)
  · rw [h] at hrun
    exact ⟨r, hrecord, numbers_of_insertNumbered hrun⟩

/-- An INSERT that fails, and not by the directory tree, changes nothing. -/
theorem after_of_insert_error {e : Error} (hstatement : q.statement? = some (.insert i))
    (hauto : s.isAutoIncrement i.table = true) (htable : Names.isTable i.table = true)
    (hkey : Names.isKey (idText (s.nextNumber i.table)) = true)
    (h : q.outcome rules s = .error e) (hio : ¬e.IsIo) : q.after rules s = s := by
  rcases insert_cases hstatement hauto with ⟨-, -, hafter⟩ | ⟨r, -, hrun⟩
  · exact hafter
  · rw [h] at hrun
    exact absurd (isIo_of_insertNumbered htable hkey hrun) hio

/-- An INSERT into a numbered table leaves all files but the counter's and the one of its number,
and so it destroys a record exactly when the counter's next number is the key of another one. -/
theorem insert_keeps_iff {result : Result} (hstatement : q.statement? = some (.insert i))
    (hauto : s.isAutoIncrement i.table = true) (h : q.outcome rules s = .ok result) :
    (∀ place, place ≠ (i.table, counterKey) → place ≠ (i.table, idText (s.nextNumber i.table)) →
      (q.after rules s).content place = s.content place) ∧
    ∃ r, insertRecord i q.params = .ok r ∧
      ((∀ place bytes, place ≠ (i.table, counterKey) → s.content place = some bytes →
        (q.after rules s).content place = some bytes) ↔
      ∀ bytes ∈ s.content (i.table, idText (s.nextNumber i.table)),
        bytes = RecordFile.encode (r.insert "id" (.ofInt64 (s.nextNumber i.table)))) := by
  obtain ⟨r, hrecord, -, hnumbers⟩ := numbers_of_insert hstatement hauto h
  refine ⟨hnumbers.others, r, hrecord, ?_⟩
  have hne : (i.table, idText (s.nextNumber i.table)) ≠ (i.table, counterKey) := fun heq =>
    idText_ne_counterKey _ (congrArg Prod.snd heq)
  constructor
  · intro hkept bytes hbytes
    have hthere := hkept _ bytes hne hbytes
    rw [hnumbers.record] at hthere
    exact (Option.some.inj hthere).symm
  · intro hsame place bytes hplace hbytes
    by_cases hkey : place = (i.table, idText (s.nextNumber i.table))
    · subst hkey
      rw [hnumbers.record, hsame bytes hbytes]
    · rw [hnumbers.others place hplace hkey, hbytes]

theorem exists_of_isOk {α : Type} {outcome : Except Error α} (h : outcome.isOk = true) :
    ∃ a, outcome = .ok a := by
  cases outcome with
  | ok a => exact ⟨a, rfl⟩
  | error e => exact absurd h (by simp [Except.isOk, Except.toBool])

/-- An INSERT into the numbered table of the default settings. -/
def newTicket : Request := .plain "INSERT INTO tickets SET text = 'new'"

/-- A shelf with a ticket under the key one and without a counter. -/
def oldTicket : Shelf := ⟨"data", ["tickets"], 1, 0, some (.directory [("tickets", .directory
  [("1.json", .file (RecordFile.encode [("text", .string "old")]))])])⟩

theorem insert_keeps_iff_ticket : ∃ result,
    newTicket.outcome Settings.default.rules oldTicket = .ok result ∧
      ∀ place, place ≠ ("tickets", counterKey) →
        place ≠ ("tickets", idText (oldTicket.nextNumber "tickets")) →
          (newTicket.after Settings.default.rules oldTicket).content place =
            oldTicket.content place := by
  have hstatement : newTicket.statement? =
      some (.insert ⟨"tickets", .assignments [⟨"text", .literal (.string "new")⟩], false⟩) := by
    decide +kernel
  have hok : (newTicket.outcome Settings.default.rules oldTicket).isOk = true := by
    decide +kernel
  obtain ⟨result, hresult⟩ := exists_of_isOk hok
  exact ⟨result, hresult, (insert_keeps_iff hstatement rfl hresult).1⟩

/-- The ticket that was there is gone after an INSERT. -/
theorem insert_replaces_ticket :
    (newTicket.outcome Settings.default.rules oldTicket).isOk = true ∧
      oldTicket.content ("tickets", "1") =
        some (RecordFile.encode [("text", .string "old")]) ∧
      (newTicket.after Settings.default.rules oldTicket).content ("tickets", "1") ≠
        some (RecordFile.encode [("text", .string "old")]) := by
  decide +kernel

/-! ## Other statements -/

namespace Request

/-- The INSERT into a table that a text is. -/
def insert? (table : String) (q : Request) : Option Insert :=
  match q.statement? with
  | some (.insert i) => if i.table = table then some i else none
  | _ => none

theorem insert?_eq_some (h : q.insert? table = some i) :
    q.statement? = some (.insert i) ∧ i.table = table := by
  unfold insert? at h
  split at h
  · rename_i there hstatement
    split_ifs at h with htable
    obtain rfl := Option.some.inj h
    exact ⟨hstatement, htable⟩
  · exact absurd h (by simp)

theorem table_ne_of_insert? (h : q.insert? table = none)
    (hstatement : q.statement? = some (.insert i)) : i.table ≠ table := by
  rintro rfl
  unfold insert? at h
  rw [hstatement] at h
  simp at h

end Request

/-- The counter of a table stands as before, and no file has come to the table. -/
structure LeavesNumbers (table : String) (s s' : Shelf) : Prop where
  counter : s'.content (table, counterKey) = s.content (table, counterKey)
  free : ∀ key, s.content (table, key) = none → s'.content (table, key) = none

theorem LeavesNumbers.trans {s'' : Shelf} (h : LeavesNumbers table s s')
    (h' : LeavesNumbers table s' s'') : LeavesNumbers table s s'' :=
  ⟨h'.counter.trans h.counter, fun key hkey => h'.free key (h.free key hkey)⟩

/-- Only INSERTs into a numbered table change its counter or bring files. -/
theorem leavesNumbers_change {statement : Statement} (hauto : auto.contains table = true)
    (hs : Orderly auto s) (hother : ∀ i, statement = .insert i → i.table ≠ table)
    (h : Change rules params s s' statement) : LeavesNumbers table s s' := by
  have hsame : (∀ key, s'.content (table, key) = s.content (table, key)) →
      LeavesNumbers table s s' := fun hsame =>
    ⟨hsame counterKey, fun key hkey => (hsame key).trans hkey⟩
  by_cases htarget : statement.target? = some table
  swap
  · exact hsame (h.elsewhere htarget)
  have hnumbered : s.isAutoIncrement table = true := by rw [hs.isAutoIncrement, hauto]
  cases h with
  | keep _ same => exact hsame fun key => same (table, key)
  | @count i => exact absurd (Option.some.inj htarget) (hother i rfl)
  | @number i => exact absurd (Option.some.inj htarget) (hother i rfl)
  | @keyed i => exact absurd (Option.some.inj htarget) (hother i rfl)
  | @stamped i => exact absurd (Option.some.inj htarget) (hother i rfl)
  | @assign u k r visible record writes =>
    obtain rfl := Option.some.inj htarget
    refine ⟨writes.others _ fun hplace => visible hnumbered (congrArg Prod.snd hplace).symm,
      fun key hkey => ?_⟩
    have hne : (u.table, key) ≠ (u.table, k) := by
      intro hplace
      rw [Shelf.record, ← hplace, hkey] at record
      exact absurd record (by simp)
    rw [writes.others _ hne, hkey]
  | @remove d k visible gone others =>
    obtain rfl := Option.some.inj htarget
    refine ⟨others _ fun hplace => visible hnumbered (congrArg Prod.snd hplace).symm,
      fun key hkey => ?_⟩
    by_cases hplace : (d.table, key) = (d.table, k)
    · rw [hplace, gone]
    · rw [others _ hplace, hkey]

theorem leavesNumbers_after (hauto : auto.contains table = true) (hs : Orderly auto s)
    (h : q.insert? table = none) : LeavesNumbers table s (q.after rules s) := by
  refine (Request.after_keeps (P := LeavesNumbers table s)
    (fun statement hstatement s₁ s₂ hs₁ hchange hkept => hkept.trans ?_) hs
      ⟨rfl, fun _ hkey => hkey⟩).2
  refine leavesNumbers_change hauto hs₁ (fun i hi => ?_) hchange
  exact Request.table_ne_of_insert? h (hi ▸ hstatement)

/-- A listing does not depend on the file of a counter. -/
theorem scan_without_counter (hauto : s.isAutoIncrement table = true) (t : String) :
    (s.without table [fileName counterKey]).scan t = s.scan t := by
  cases he : s.tableEntries table with
  | error cause => rw [without, he]
  | ok entries =>
    have hbecomes := becomes_without he [fileName counterKey]
    have hnumbered : (s.without table [fileName counterKey]).isAutoIncrement t =
        s.isAutoIncrement t := by
      rw [isAutoIncrement, hbecomes.autoIncrement, ← isAutoIncrement]
    have hfilter : (entries.filter fun entry => entry.1 ∉ [fileName counterKey]) =
        entries.filter fun entry => entry.1 ≠ fileName counterKey :=
      List.filter_congr fun entry _ => by simp
    have htablePath : (s.without table [fileName counterKey]).tablePath t = s.tablePath t := by
      rw [tablePath, tablePath, hbecomes.location]
    have hpath : (s.without table [fileName counterKey]).path t = s.path t := by
      funext name
      rw [path, path, htablePath]
    rw [scan, scan, hnumbered, hpath, htablePath]
    by_cases ht : t = table
    · subst ht
      rw [hbecomes.here, he, hfilter]
      dsimp only
      rw [hauto, scanEntries_without_counter]
    · rw [hbecomes.others t ht]

theorem Request.outcome_without_counter {query : Select} (hauto : s.isAutoIncrement table = true)
    (h : q.statement? = some (.select query)) :
    q.outcome rules (s.without table [fileName counterKey]) = q.outcome rules s := by
  rw [outcome, outcome, run_executeText h, run_executeText h]
  change ((executeSelect rules query q.params).run _).1 =
    ((executeSelect rules query q.params).run s).1
  cases hscan : s.scan query.table with
  | error e =>
    rw [run_executeSelect_error hscan,
      run_executeSelect_error ((scan_without_counter hauto _).trans hscan)]
  | ok rows =>
    rw [run_executeSelect hscan, run_executeSelect ((scan_without_counter hauto _).trans hscan)]

/-! ## Runs -/

/-- How many INSERTs into a table succeed in a run. -/
def inserts (rules : Rules) (table : String) : Shelf → List Request → ℕ
  | _, [] => 0
  | s, q :: requests =>
    (if (q.insert? table).isSome && (q.outcome rules s).isOk then 1 else 0) +
      inserts rules table (q.after rules s) requests

theorem inserts_append (s : Shelf) (first second : List Request) :
    inserts rules table s (first ++ second) = inserts rules table s first +
      inserts rules table (Request.afterAll rules s first) second := by
  induction first generalizing s with
  | nil => exact (Nat.zero_add _).symm
  | cons q first ih =>
    rw [List.cons_append, inserts, inserts, ih, Request.afterAll_cons, Nat.add_assoc]

/-- No text of a run fails by the directory tree. -/
def Smooth (rules : Rules) (s : Shelf) (requests : List Request) : Prop :=
  ∀ earlier q later, requests = earlier ++ q :: later →
    ∀ e, q.outcome rules (Request.afterAll rules s earlier) = .error e → ¬e.IsIo

theorem Smooth.nil : Smooth rules s [] :=
  fun _ _ _ h => absurd h.symm (List.append_ne_nil_of_right_ne_nil _ (List.cons_ne_nil _ _))

theorem Smooth.cons {requests : List Request} (hq : ∀ e, q.outcome rules s = .error e → ¬e.IsIo)
    (h : Smooth rules (q.after rules s) requests) : Smooth rules s (q :: requests) := by
  intro earlier q' later hrequests
  cases earlier with
  | nil =>
    obtain ⟨rfl, -⟩ := List.cons.inj hrequests
    exact hq
  | cons first earlier =>
    obtain ⟨rfl, hrest⟩ := List.cons.inj hrequests
    rw [Request.afterAll_cons]
    exact h earlier q' later hrest

theorem Smooth.of_append {first second : List Request} (h : Smooth rules s (first ++ second)) :
    Smooth rules s first := by
  rintro earlier q later rfl
  exact h earlier q (later ++ second) (by simp)

/-- A numbered table after some INSERTs: the counter gives the next number, and no number from it on
is a key. -/
structure Counted (auto : List String) (table : String) (n : ℕ) (s : Shelf) : Prop where
  orderly : Orderly auto s
  next : s.nextNumber table = .ofNat (n + 1)
  free : ∀ m, n < m → s.content (table, String.ofList (decimalDigits m)) = none

theorem counted_of_empty (hs : Orderly auto s) (hempty : s.entriesOf table = []) :
    Counted auto table 0 s := by
  refine ⟨hs, ?_, fun m _ => content_of_empty hempty _⟩
  rw [nextNumber, Shelf.record, content_of_empty hempty]
  rfl

theorem Counted.other {n : ℕ} (h : Counted auto table n s) (hs : Orderly auto s')
    (hleaves : LeavesNumbers table s s') : Counted auto table n s' := by
  refine ⟨hs, ?_, fun m hm => hleaves.free _ (h.free m hm)⟩
  rw [nextNumber, record_congr hleaves.counter, ← nextNumber, h.next]

theorem Counted.numbers {n : ℕ} (h : Counted auto table n s) (hn : n + 1 < 2 ^ 63)
    (hs : Orderly auto s') (hnumbers : s.Numbers s' table (.ofNat (n + 1)) r) :
    Counted auto table (n + 1) s' := by
  refine ⟨hs, ?_, fun m hm => ?_⟩
  · rw [hnumbers.nextNumber, Int64.ofNat_add (n + 1) 1]
    rfl
  · rw [hnumbers.others _ ?_ ?_]
    · exact h.free m (Nat.lt_of_succ_lt hm)
    · intro hplace
      exact ofList_ne_counterKey (not_mem_decimalDigits (by decide)) (congrArg Prod.snd hplace)
    · intro hplace
      rw [idText_ofNat hn] at hplace
      have hdigits := String.ofList_injective (congrArg Prod.snd hplace)
      rw [← ofDecimalDigits_decimalDigits m, hdigits, ofDecimalDigits_decimalDigits] at hm
      exact absurd hm (Nat.lt_irrefl _)

theorem Counted.isKey {n : ℕ} (h : Counted auto table n s) (hn : n + 1 < 2 ^ 63) :
    Names.isKey (idText (s.nextNumber table)) = true := by
  rw [h.next, idText_ofNat hn]
  exact Names.isKey_decimalDigits (by omega)

/-- One text of a run goes on counting if it is an INSERT that succeeds. -/
theorem Counted.after {n : ℕ} (h : Counted auto table n s) (htable : Names.isTable table = true)
    (hauto : auto.contains table = true) (hn : n + 1 < 2 ^ 63)
    (hio : ∀ e, q.outcome rules s = .error e → ¬e.IsIo) :
    Counted auto table (n + inserts rules table s [q]) (q.after rules s) := by
  have hnumbered : s.isAutoIncrement table = true := by rw [h.orderly.isAutoIncrement, hauto]
  have horderly : Orderly auto (q.after rules s) := Request.orderly_after h.orderly q
  rw [inserts, inserts, Nat.add_zero]
  cases hinsert : q.insert? table with
  | none =>
    simpa using h.other horderly (leavesNumbers_after hauto h.orderly hinsert)
  | some i =>
    obtain ⟨hstatement, rfl⟩ := Request.insert?_eq_some hinsert
    cases houtcome : q.outcome rules s with
    | ok result =>
      obtain ⟨r, -, -, hnumbers⟩ := numbers_of_insert hstatement hnumbered houtcome
      rw [h.next] at hnumbers
      exact h.numbers hn horderly hnumbers
    | error e =>
      rw [after_of_insert_error hstatement hnumbered htable (h.isKey hn) houtcome (hio e houtcome)]
      exact h

theorem counted_afterAll (hs : Counted auto table 0 s) (htable : Names.isTable table = true)
    (hauto : auto.contains table = true) {requests : List Request} (hio : Smooth rules s requests)
    (hcount : inserts rules table s requests < 2 ^ 63 - 1) :
    Counted auto table (inserts rules table s requests) (Request.afterAll rules s requests) := by
  -- The bound on the INSERTs is one on the whole run, so the induction takes its last text off.
  induction requests using List.reverseRecOn with
  | nil => exact hs
  | append_singleton requests q ih =>
    rw [inserts_append] at hcount ⊢
    rw [Request.afterAll_append]
    have hearlier := ih hio.of_append (by omega)
    exact hearlier.after htable hauto (by omega) (hio requests q [] rfl)

/-- What one text does to a numbered table after `n` INSERTs into it. -/
structure InOrder (rules : Rules) (table : String) (n : ℕ) (s : Shelf) (q : Request) : Prop where
  numbered : ∀ i ∈ q.insert? table, ∀ result, q.outcome rules s = .ok result →
    result = inserted (.ofNat (n + 1)) ∧ ∃ r, insertRecord i q.params = .ok r ∧
      (q.after rules s).content (table, String.ofList (decimalDigits (n + 1))) =
        some (RecordFile.encode (r.insert "id" (.ofNat (n + 1)))) ∧
      (Storable r → (q.after rules s).get table (String.ofList (decimalDigits (n + 1))) =
        .ok (some (r.insert "id" (.ofNat (n + 1)))))
  failed : ∀ i ∈ q.insert? table, ∀ e, q.outcome rules s = .error e → q.after rules s = s
  other : q.insert? table = none → LeavesNumbers table s (q.after rules s)
  hidden : ∀ rows, s.scan table = .ok rows → ∀ row ∈ rows, row.1 ≠ counterKey
  select : ∀ query, q.statement? = some (.select query) →
    q.outcome rules (s.without table [fileName counterKey]) = q.outcome rules s

theorem Counted.inOrder {n : ℕ} (h : Counted auto table n s) (htable : Names.isTable table = true)
    (hauto : auto.contains table = true) (hn : n + 1 < 2 ^ 63)
    (hio : ∀ e, q.outcome rules s = .error e → ¬e.IsIo) : InOrder rules table n s q := by
  have hnumbered : s.isAutoIncrement table = true := by rw [h.orderly.isAutoIncrement, hauto]
  constructor
  case numbered =>
    intro i hi result houtcome
    obtain ⟨hstatement, rfl⟩ := Request.insert?_eq_some hi
    obtain ⟨r, hrecord, hresult, hnumbers⟩ := numbers_of_insert hstatement hnumbered houtcome
    rw [h.next, Json.ofInt64_ofNat hn] at hresult
    have hcontent := hnumbers.record
    rw [h.next, Json.ofInt64_ofNat hn, idText_ofNat hn] at hcontent
    refine ⟨hresult, r, hrecord, hcontent, fun hstorable => ?_⟩
    have hread := get_of_content (Names.isKey_decimalDigits (by omega)) htable hcontent
    have hid := hstorable.insert "id" (v := .ofNat (n + 1)) trivial rfl
    exact hread.trans (congrArg Except.ok (RecordFile.decode_encode hid))
  case failed =>
    intro i hi e houtcome
    obtain ⟨hstatement, rfl⟩ := Request.insert?_eq_some hi
    exact after_of_insert_error hstatement hnumbered htable (h.isKey hn) houtcome (hio e houtcome)
  case other => exact fun hother => leavesNumbers_after hauto h.orderly hother
  case hidden => exact fun rows hscan => ne_counterKey_of_scan hnumbered hscan
  case select => exact fun query hquery => Request.outcome_without_counter hnumbered hquery

/-- In a run that starts without records in a numbered table, the INSERTs into it that succeed get
the numbers from one on in turn, each of which was no key before, and nothing else has to do with
the counter. -/
theorem insert_numbers_in_order (hs : s.Wellformed) (htable : Names.isTable table = true)
    (hauto : s.isAutoIncrement table = true) (hempty : s.entriesOf table = [])
    {requests : List Request} (hio : Smooth rules s requests)
    (hcount : inserts rules table s requests < 2 ^ 63 - 1) {earlier later : List Request}
    (hrequests : requests = earlier ++ q :: later) :
    InOrder rules table (inserts rules table s earlier) (Request.afterAll rules s earlier) q ∧
      ∀ first rest, earlier = first ++ rest → (Request.afterAll rules s first).content
        (table, String.ofList (decimalDigits (inserts rules table s earlier + 1))) = none := by
  subst hrequests
  have hstart : Counted s.autoIncrement table 0 s := counted_of_empty ⟨hs, rfl⟩ hempty
  have hcounted : ∀ first rest, earlier = first ++ rest → Counted s.autoIncrement table
      (inserts rules table s first) (Request.afterAll rules s first) := by
    rintro first rest rfl
    rw [inserts_append, inserts_append] at hcount
    exact counted_afterAll hstart htable hauto hio.of_append.of_append (by omega)
  rw [inserts_append] at hcount
  constructor
  · exact (hcounted earlier [] (by simp)).inOrder htable hauto (by omega) (hio earlier q later rfl)
  · rintro first rest rfl
    refine (hcounted first rest rfl).free _ ?_
    rw [inserts_append]
    omega

/-- A place where nothing has been made yet, with the default numbered tables. -/
def unmadeTickets : Shelf := ⟨"data", Settings.default.autoIncrement, 1, 0, none⟩

theorem insert_numbers_in_order_tickets :
    InOrder Settings.default.rules "tickets" 1
      (newTicket.after Settings.default.rules unmadeTickets) newTicket := by
  have hfirst : (newTicket.outcome Settings.default.rules unmadeTickets).isOk = true := by
    decide +kernel
  have hsecond : (newTicket.outcome Settings.default.rules
      (newTicket.after Settings.default.rules unmadeTickets)).isOk = true := by
    decide +kernel
  have hok : ∀ {s : Shelf}, (newTicket.outcome Settings.default.rules s).isOk = true →
      ∀ e, newTicket.outcome Settings.default.rules s = .error e → ¬e.IsIo := by
    intro s h e he
    rw [he] at h
    exact absurd h (by simp [Except.isOk, Except.toBool])
  have hcount : inserts Settings.default.rules "tickets" unmadeTickets [newTicket] = 1 := by
    decide +kernel
  have hcounts : inserts Settings.default.rules "tickets" unmadeTickets [newTicket, newTicket] <
      2 ^ 63 - 1 := by
    decide +kernel
  have hrequests : [newTicket, newTicket] = [newTicket] ++ newTicket :: [] := rfl
  have horder := (insert_numbers_in_order (wellformed_of_root_none rfl) (by decide) rfl rfl
    (.cons (hok hfirst) (.cons (hok hsecond) .nil)) hcounts hrequests).1
  rwa [hcount] at horder

end Query

end RecordShelf

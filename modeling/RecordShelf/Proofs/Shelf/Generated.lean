import Mathlib.Data.List.Forall2
import Mathlib.Logic.Relation
import RecordShelf.Proofs.Shelf.Content
import RecordShelf.Proofs.Shelf.FileAt

/-!
# Generated keys

A record without a key of its own goes under a number: the time of the clock, or the next number
after it that names no file yet. Different numbers name different files, so among as many numbers in
a row as the table has entries, and one more, one names no file, and the search for it comes to an
end. Records that are stored at the same time get different keys, also when their searches take
turns.
-/

namespace RecordShelf

/-- The name of the file under a number. -/
def stampName (n : ℕ) : String := fileName (String.ofList (decimalDigits n))

theorem decimalText_injective :
    Function.Injective fun n : ℕ => String.ofList (decimalDigits n) := by
  intro m n h
  have hdigits : decimalDigits m = decimalDigits n := String.ofList_injective h
  rw [← ofDecimalDigits_decimalDigits m, hdigits, ofDecimalDigits_decimalDigits]

theorem stampName_injective : Function.Injective stampName :=
  fun _ _ h => decimalText_injective (fileName_injective h)

theorem fits_stampName {n : ℕ} (hn : n < 2 ^ 64) : Node.fits (stampName n) = true := by
  have hsize := utf8ByteSize_ofList_le (decimalDigits n)
  have hlength := length_decimalDigits_le hn
  have hjson : recordSuffix.utf8ByteSize = 5 := by decide
  rw [Node.fits, stampName, fileName, String.utf8ByteSize_append, hjson, decide_eq_true_eq]
  have hmax : Node.maxName = 255 := rfl
  omega

/-! ## Unused numbers -/

/-- No entry has the name of the number's file, be it a file or a directory. -/
def Unused (entries : Entries) (n : ℕ) : Prop := entries.get? (stampName n) = none

/-- The first unused number from a stamp on. -/
structure FirstUnused (entries : Entries) (stamp n : ℕ) : Prop where
  le : stamp ≤ n
  unused : Unused entries n
  used : ∀ m, stamp ≤ m → m < n → ¬Unused entries m

section
variable {entries : Entries} {stamp n m i tries : ℕ}

theorem FirstUnused.le_of_unused (h : FirstUnused entries stamp n) (hm : stamp ≤ m)
    (hunused : Unused entries m) : n ≤ m :=
  Nat.le_of_not_lt fun hlt => h.used m hm hlt hunused

theorem firstUnused_self (h : Unused entries stamp) : FirstUnused entries stamp stamp :=
  ⟨Nat.le_refl stamp, h, fun _ hle hlt => absurd hle (Nat.not_le_of_lt hlt)⟩

theorem FirstUnused.bump (h : FirstUnused entries (stamp + 1) n) (hused : ¬Unused entries stamp) :
    FirstUnused entries stamp n := by
  refine ⟨Nat.le_of_succ_le h.le, h.unused, fun m hle hlt => ?_⟩
  rcases Nat.eq_or_lt_of_le hle with rfl | hlater
  · exact hused
  · exact h.used m hlater hlt

/-- Entries have too few names for all of the numbers. -/
theorem exists_unused (entries : Entries) (stamp : ℕ) :
    ∃ i, i < entries.length + 1 ∧ Unused entries (stamp + i) := by
  by_contra hnone
  have hused : ∀ i, i < entries.length + 1 → stampName (stamp + i) ∈ entries.names := by
    intro i hi
    by_contra hnot
    exact hnone ⟨i, hi, Named.get?_eq_none_iff.2 hnot⟩
  have hnodup : ((List.range (entries.length + 1)).map fun i => stampName (stamp + i)).Nodup :=
    List.nodup_range.map fun i j h => Nat.add_left_cancel (stampName_injective h)
  have hnames : (List.range (entries.length + 1)).map (fun i => stampName (stamp + i)) ⊆
      entries.names := by
    intro name hname
    obtain ⟨i, hi, rfl⟩ := List.mem_map.1 hname
    exact hused i (List.mem_range.1 hi)
  have hlength := (List.subperm_of_subset hnodup hnames).length_le
  rw [List.length_map, List.length_range, Named.names, List.length_map] at hlength
  omega

/-- The tries are enough once an unused number is among the numbers tried. -/
theorem firstUnused_freeStamp (hi : i < tries) (h : Unused entries (stamp + i)) :
    FirstUnused entries stamp (ShelfM.freeStamp entries tries stamp) := by
  induction tries generalizing stamp i with
  | zero => exact absurd hi (Nat.not_lt_zero i)
  | succ tries ih =>
    rw [ShelfM.freeStamp]
    cases hget : entries.get? (fileName (String.ofList (decimalDigits stamp))) with
    | none => exact firstUnused_self hget
    | some node =>
      have hused : ¬Unused entries stamp := fun hnone => nomatch hget.symm.trans hnone
      cases i with
      | zero => exact absurd h hused
      | succ i =>
        rw [← Nat.add_assoc, Nat.add_right_comm] at h
        exact (ih (Nat.lt_of_succ_lt_succ hi) h).bump hused

end

/-! ## Storing under a number -/

/-- Trying to make the file of one number after another until one is not there yet. -/
inductive Shelf.Claims (s : Shelf) (table : String) (content : ByteArray) : ℕ → ℕ → Shelf → Prop
  | made {n : ℕ} {s' : Shelf} (created : s.createFile table (stampName n) content = .ok s') :
      Claims s table content n n s'
  | bump {m n : ℕ} {s' : Shelf}
      (there : s.createFile table (stampName m) content = .error .alreadyExists)
      (more : Claims s table content (m + 1) n s') : Claims s table content m n s'

/-- A record has been stored under the first unused number: its table has one entry more, the file
of the record, and no other file of the shelf has changed. -/
structure Shelf.Generated (s : Shelf) (table : String) (stamp : ℕ) (r : Record) (n : ℕ) (s' : Shelf) :
    Prop where
  first : FirstUnused (s.entriesOf table) stamp n
  entries : s'.tableEntries table =
    .ok (s.entriesOf table ++ [(stampName n, .file (RecordFile.encode r))])
  here : s'.fileAt [table, stampName n] = some (RecordFile.encode r)
  others : ∀ path, path ≠ [table, stampName n] → s'.fileAt path = s.fileAt path

namespace Shelf
variable {s s' : Shelf} {table : String} {entries : Entries} {stamp n m : ℕ} {content : ByteArray}

theorem createFile_there (h : s.tableEntries table = .ok entries) {name : String}
    (hname : Node.fits name = true) (hthere : entries.get? name ≠ none) :
    s.createFile table name content = .error .alreadyExists := by
  obtain ⟨node, hnode⟩ := Option.ne_none_iff_exists'.1 hthere
  rw [createFile, h, ok_bind, hname]
  simp only [Bool.not_true, Bool.false_eq_true, if_false, hnode]
  rfl

/-- The loop comes to the first unused number, if all names on the way to it fit. -/
theorem claims_of_firstUnused (he : s.tableEntries table = .ok entries)
    (hfirst : FirstUnused entries stamp n) (hfits : ∀ m, m ≤ n → Node.fits (stampName m) = true)
    (hcreate : s.createFile table (stampName n) content = .ok s') :
    Claims s table content stamp n s' := by
  obtain ⟨k, rfl⟩ := Nat.exists_eq_add_of_le hfirst.le
  induction k generalizing stamp with
  | zero => exact .made hcreate
  | succ k ih =>
    have hsame : stamp + (k + 1) = stamp + 1 + k := by omega
    rw [hsame] at hfirst hfits hcreate ⊢
    have hused : ¬Unused entries stamp := hfirst.used stamp (Nat.le_refl _) (by omega)
    have hrest : FirstUnused entries (stamp + 1) (stamp + 1 + k) :=
      ⟨Nat.le_add_right _ _, hfirst.unused, fun m hle => hfirst.used m (Nat.le_of_succ_le hle)⟩
    exact .bump (createFile_there he (hfits stamp (by omega)) hused) (ih hrest hfits hcreate)

/-- What stands in a table once a file has been made in it. -/
theorem fileAt_create (he : s.tableEntries table = .ok entries) {name : String}
    (hfree : entries.get? name = none) (content : ByteArray) :
    (s.setTable table (entries.insert name (.file content))).fileAt [table, name] = some content ∧
      ∀ path, path ≠ [table, name] →
        (s.setTable table (entries.insert name (.file content))).fileAt path = s.fileAt path := by
  constructor
  · rw [fileAt_table (tableEntries_setTable_self he _), Named.get?_insert_self, Option.bind_some,
      Node.fileAt, Node.find]
  · intro path hne
    refine fileAt_setTable he fun other rest hpath => ?_
    by_cases hother : other = name
    · subst hother
      rw [Named.get?_insert_self, hfree, Option.bind_some]
      cases rest with
      | nil => exact absurd hpath hne
      | cons below rest => exact Node.fileAt_file_cons content below rest
    · rw [Named.get?_insert_of_ne _ _ hother]

end Shelf

namespace ShelfM
open RecordShelf.Shelf
variable {s s' : Shelf} {table : String} {stamp n : ℕ} {r : Record}

/-- Making a table makes no file. -/
theorem fileAt_ensureTable (h : (ensureTable table).run s = (.ok (), s')) (path : TreePath) :
    s'.fileAt path = s.fileAt path := by
  rw [ensureTable] at h
  obtain ⟨_, s₁, hcheck, hmake⟩ := run_bind_ok h
  obtain ⟨-, rfl⟩ := run_read_ok hcheck
  rw [run_bind_of_ok (run_getThe s₁)] at hmake
  cases hmade : s₁.withTable table with
  | ok made =>
    rw [run_step_of_ok hmade] at hmake
    obtain rfl := (Prod.mk.inj hmake).2
    exact fileAt_withTable hmade path
  | error cause =>
    rw [run_step_of_error hmade] at hmake
    exact absurd (Prod.mk.inj hmake).1 (by simp)

/-- A record without a key goes under the first unused number, which the loop of tries comes to. -/
theorem run_putGenerated (htable : Names.isTable table = true)
    (habove : s.tableEntries table ≠ .error .notDirectory)
    (hsmall : stamp + (s.entriesOf table).length < 2 ^ 63) (r : Record) :
    ∃ n s', (putGenerated table stamp r).run s = (.ok n, s') ∧ s.Generated table stamp r n s' ∧
      ∃ made, (ensureTable table).run s = (.ok (), made) ∧
        made.Claims table (RecordFile.encode r) stamp n s' := by
  obtain ⟨made, hmade, hbecomes, -⟩ := run_ensureTable htable habove
  have hentries : made.entriesOf table = s.entriesOf table := hbecomes.entriesOf
  obtain ⟨i, hi, hunused⟩ := exists_unused (s.entriesOf table) stamp
  have hfirst : FirstUnused (s.entriesOf table) stamp (stampIn made table stamp) := by
    rw [stampIn, hentries]
    exact firstUnused_freeStamp hi hunused
  have hle := hfirst.le_of_unused (Nat.le_add_right stamp i) hunused
  have hfits : ∀ m, m ≤ stampIn made table stamp → Node.fits (stampName m) = true :=
    fun m hm => fits_stampName (by omega)
  have hcreate : made.createFile table
      (fileName (String.ofList (decimalDigits (stampIn made table stamp)))) (RecordFile.encode r) =
        .ok (made.setTable table ((s.entriesOf table).insert (stampName (stampIn made table stamp))
          (.file (RecordFile.encode r)))) :=
    createFile_eq hbecomes.here (hfits _ (Nat.le_refl _)) hfirst.unused
  obtain ⟨hhere, hothers⟩ := fileAt_create hbecomes.here hfirst.unused (RecordFile.encode r)
  refine ⟨_, _, ?_, ⟨hfirst, ?_, hhere, fun path hne => ?_⟩, made, hmade,
    claims_of_firstUnused hbecomes.here hfirst hfits hcreate⟩
  · rw [run_putGenerated_eq hmade, hcreate]
  · rw [tableEntries_setTable_self hbecomes.here,
      Named.insert_eq_append (Named.get?_eq_none_iff.1 hfirst.unused)]
  · rw [hothers path hne, fileAt_ensureTable hmade]

/-- Records that are stored one after the other go under different numbers, and all of them are there
at the end. -/
theorem run_mapM_putGenerated (requests : List (ℕ × Record)) (htable : Names.isTable table = true)
    (habove : s.tableEntries table ≠ .error .notDirectory)
    (hsmall : ∀ q ∈ requests, q.1 + (s.entriesOf table).length + requests.length < 2 ^ 63) :
    ∃ keys s', (requests.mapM fun q => putGenerated table q.1 q.2).run s = (.ok keys, s') ∧
      keys.Nodup ∧ (∀ n ∈ keys, Unused (s.entriesOf table) n) ∧
      List.Forall₂ (fun q n => q.1 ≤ n ∧ s'.fileAt [table, stampName n] =
        some (RecordFile.encode q.2)) requests keys ∧
      ∀ path, (∀ n ∈ keys, path ≠ [table, stampName n]) → s'.fileAt path = s.fileAt path := by
  induction requests generalizing s with
  | nil => exact ⟨[], s, rfl, List.nodup_nil, by simp, .nil, fun _ _ => rfl⟩
  | cons q requests ih =>
    obtain ⟨hq, hrequests⟩ := List.forall_mem_cons.1 hsmall
    have hone : q.1 + (s.entriesOf table).length < 2 ^ 63 := by omega
    obtain ⟨n, s₁, hrun, hgenerated, -⟩ := run_putGenerated htable habove hone q.2
    have hentries : s₁.entriesOf table =
        s.entriesOf table ++ [(stampName n, .file (RecordFile.encode q.2))] := by
      rw [entriesOf, hgenerated.entries]
      rfl
    obtain ⟨keys, s', hmore, hnodup, hunused, hfiles, hothers⟩ := ih (s := s₁)
      (by rw [hgenerated.entries]; simp)
      (fun p hp => by
        have hp := hrequests p hp
        rw [hentries, List.length_append, List.length_singleton]
        rw [List.length_cons] at hp
        omega)
    have hnot : n ∉ keys := by
      intro hn
      have hthere := hunused n hn
      rw [Unused, hentries, Named.get?_eq_none_iff] at hthere
      exact hthere (by simp [Named.names])
    refine ⟨n :: keys, s', ?_, List.nodup_cons.2 ⟨hnot, hnodup⟩,
      List.forall_mem_cons.2 ⟨hgenerated.first.unused, fun m hm => ?_⟩, .cons ?_ hfiles, ?_⟩
    · rw [List.mapM_cons, run_bind_of_ok hrun, run_bind_of_ok hmore]
      rfl
    · have hfree := hunused m hm
      rw [Unused, hentries, Named.get?_eq_none_iff] at hfree
      refine Named.get?_eq_none_iff.2 fun hmem => hfree ?_
      rw [Named.names, List.map_append]
      exact List.mem_append_left _ hmem
    · refine ⟨hgenerated.first.le, ?_⟩
      rw [hothers _ fun m hm hpath => hnot ?_, hgenerated.here]
      have hname : stampName n = stampName m := by simpa using hpath
      exact stampName_injective hname ▸ hm
    · intro path hpath
      obtain ⟨hfirst, hrest⟩ := List.forall_mem_cons.1 hpath
      rw [hothers path hrest, hgenerated.others path hfirst]

end ShelfM

/-! ## Searches that take turns -/

/-- One of several who store records under numbers: a number that is tried next, or the number under
which the record is stored. -/
inductive Writer where
  | trying (n : ℕ) (r : Record)
  | stored (n : ℕ)

/-- The numbers that have been given out. -/
def Writer.given : List Writer → List ℕ
  | [] => []
  | .trying _ _ :: writers => given writers
  | .stored n :: writers => n :: given writers

/-- One try of one of the writers. -/
inductive Writer.Turn (table : String) : Shelf × List Writer → Shelf × List Writer → Prop
  | made {s s' : Shelf} {n : ℕ} {r : Record} {front back : List Writer}
      (created : s.createFile table (stampName n) (RecordFile.encode r) = .ok s') :
      Turn table (s, front ++ .trying n r :: back) (s', front ++ .stored n :: back)
  | bump {s : Shelf} {n : ℕ} {r : Record} {front back : List Writer}
      (there : s.createFile table (stampName n) (RecordFile.encode r) = .error .alreadyExists) :
      Turn table (s, front ++ .trying n r :: back) (s, front ++ .trying (n + 1) r :: back)

namespace Writer
variable {s s' : Shelf} {table : String} {front back : List Writer} {n : ℕ} {r : Record}

theorem given_append (front back : List Writer) : given (front ++ back) = given front ++ given back := by
  induction front with
  | nil => rfl
  | cons writer front ih => cases writer <;> simp [given, ih]

/-- Different numbers have been given out, and there is a file under each. -/
structure Apart (table : String) (state : Shelf × List Writer) : Prop where
  nodup : (given state.2).Nodup
  used : ∀ n ∈ given state.2, ¬Unused (state.1.entriesOf table) n

/-- The number that is given out is another one than those given out before, since it had no file. -/
theorem Turn.apart {before after : Shelf × List Writer} (h : Turn table before after)
    (hbefore : Apart table before) : Apart table after := by
  obtain ⟨hnodup, hused⟩ := hbefore
  cases h with
  | bump there =>
    dsimp only at hnodup hused ⊢
    rw [given_append, given] at hnodup hused
    exact ⟨by rwa [given_append, given], by rwa [given_append, given]⟩
  | @made s s' n r front back created =>
    obtain ⟨entries, he, hfits, hfree, rfl⟩ := Shelf.createFile_ok created
    have hentries : s.entriesOf table = entries := by
      rw [Shelf.entriesOf, he]
      rfl
    have hnow : (s.setTable table (entries.insert (stampName n) (.file (RecordFile.encode r)))).entriesOf
        table = entries.insert (stampName n) (.file (RecordFile.encode r)) := by
      rw [Shelf.entriesOf, Shelf.tableEntries_setTable_self he]
      rfl
    dsimp only at hnodup hused
    rw [given_append, given, hentries] at hused
    rw [given_append, given] at hnodup
    have hnew : n ∉ given front ++ given back := fun hn => hused n hn hfree
    have hgiven : (given (front ++ .stored n :: back)).Perm (n :: (given front ++ given back)) := by
      rw [given_append, given]
      exact List.perm_middle
    constructor
    · exact hgiven.nodup_iff.2 (List.nodup_cons.2 ⟨hnew, hnodup⟩)
    · intro m hm
      dsimp only
      rw [Unused, hnow]
      rcases List.mem_cons.1 (hgiven.mem_iff.1 hm) with rfl | hm
      · rw [Named.get?_insert_self]
        exact Option.some_ne_none _
      · have hne : stampName m ≠ stampName n := fun h => hnew (stampName_injective h ▸ hm)
        rw [Named.get?_insert_of_ne _ _ hne]
        exact hused m hm

theorem apart_of_turns {before after : Shelf × List Writer}
    (h : Relation.ReflTransGen (Turn table) before after) (hbefore : Apart table before) :
    Apart table after := by
  induction h with
  | refl => exact hbefore
  | tail _ hturn ih => exact hturn.apart ih

theorem given_trying (requests : List (ℕ × Record)) :
    given (requests.map fun q => trying q.1 q.2) = [] := by
  induction requests with
  | nil => rfl
  | cons q requests ih => exact ih

/-- However the writers take turns, they get different numbers. -/
theorem nodup_given {requests : List (ℕ × Record)} {writers : List Writer}
    (h : Relation.ReflTransGen (Turn table) (s, requests.map fun q => trying q.1 q.2) (s', writers)) :
    (given writers).Nodup := by
  refine (apart_of_turns h ⟨?_, fun n hn => ?_⟩).nodup
  · rw [given_trying]
    exact List.nodup_nil
  · rw [given_trying] at hn
    exact absurd hn List.not_mem_nil

end Writer

/-! ## Generated keys -/

section
variable {s : Shelf} {table : String}

/-- Generated keys are fresh and the first that are, whatever the table holds: the loop of tries
comes to an end at the first number from the clock's on that names nothing in the table, and the
record's file is the only one that is new or changed. Any number of records get different keys, one
after the other and by turns. The numbers are those of a clock, and stay within 64 bits. -/
theorem generated_keys_fresh (htable : Names.isTable table = true)
    (habove : s.tableEntries table ≠ .error .notDirectory) :
    (∀ stamp r, stamp + (s.entriesOf table).length < 2 ^ 63 →
      ∃ n s', (ShelfM.putGenerated table stamp r).run s = (.ok n, s') ∧
        s.Generated table stamp r n s' ∧
        ∃ made, (ShelfM.ensureTable table).run s = (.ok (), made) ∧
          made.Claims table (RecordFile.encode r) stamp n s') ∧
    (∀ requests : List (ℕ × Record),
      (∀ q ∈ requests, q.1 + (s.entriesOf table).length + requests.length < 2 ^ 63) →
      ∃ keys s', (requests.mapM fun q => ShelfM.putGenerated table q.1 q.2).run s = (.ok keys, s') ∧
        (keys.map fun n => String.ofList (decimalDigits n)).Nodup ∧
        List.Forall₂ (fun q n => q.1 ≤ n ∧ s'.fileAt [table, stampName n] =
          some (RecordFile.encode q.2)) requests keys ∧
        ∀ path, (∀ n ∈ keys, path ≠ [table, stampName n]) → s'.fileAt path = s.fileAt path) ∧
    ∀ (requests : List (ℕ × Record)) (made s' : Shelf) (writers : List Writer),
      Relation.ReflTransGen (Writer.Turn table)
        (made, requests.map fun q => .trying q.1 q.2) (s', writers) →
      ((Writer.given writers).map fun n => String.ofList (decimalDigits n)).Nodup := by
  refine ⟨fun stamp r hsmall => ShelfM.run_putGenerated htable habove hsmall r,
    fun requests hsmall => ?_, fun requests made s' writers hturns => ?_⟩
  · obtain ⟨keys, s', hrun, hnodup, -, hfiles, hothers⟩ :=
      ShelfM.run_mapM_putGenerated requests htable habove hsmall
    exact ⟨keys, s', hrun, hnodup.map decimalText_injective, hfiles, hothers⟩
  · exact (Writer.nodup_given hturns).map decimalText_injective

/-- A shelf with a table in which a directory and a file are named by numbers. -/
def crowded : Shelf :=
  { Shelf.unmade "data" with
    root := some (.directory [("logs", .directory [("5.json", .directory []), ("6.json", .file ⟨#[]⟩)])]) }

theorem generated_keys_fresh_crowded :
    Names.isTable "logs" = true ∧ crowded.tableEntries "logs" ≠ .error .notDirectory ∧
    5 + (crowded.entriesOf "logs").length + 2 < 2 ^ 63 ∧
    (∃ s', (ShelfM.putGenerated "logs" 5 []).run crowded = (.ok 7, s') ∧
      crowded.Generated "logs" 5 [] 7 s') ∧
    ∃ keys s', (([(5, []), (5, [])] : List (ℕ × Record)).mapM fun q =>
        ShelfM.putGenerated "logs" q.1 q.2).run crowded = (.ok keys, s') ∧
      (keys.map fun n => String.ofList (decimalDigits n)).Nodup := by
  have htable : Names.isTable "logs" = true := by decide
  have habove : crowded.tableEntries "logs" ≠ .error .notDirectory := nofun
  have hsmall : 5 + (crowded.entriesOf "logs").length + 2 < 2 ^ 63 := by decide
  obtain ⟨hone, hmany, -⟩ := generated_keys_fresh htable habove
  obtain ⟨n, s', hrun, hgenerated, -⟩ := hone 5 [] (by decide)
  have hseven : n = 7 := by
    have hresult : ((ShelfM.putGenerated "logs" 5 []).run crowded).1 = .ok 7 := by rfl
    rw [hrun] at hresult
    exact Except.ok.inj hresult
  subst hseven
  obtain ⟨keys, s₂, hruns, hnodup, -⟩ := hmany [(5, []), (5, [])] (by
    intro q hq
    obtain rfl : q = (5, []) := by simpa using hq
    exact hsmall)
  exact ⟨htable, habove, hsmall, ⟨s', hrun, hgenerated⟩, keys, s₂, hruns, hnodup⟩

end

end RecordShelf

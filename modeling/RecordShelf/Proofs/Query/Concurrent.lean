import Mathlib.Logic.Function.Basic
import Mathlib.Logic.Relation
import RecordShelf.Proofs.Query.Steps
import RecordShelf.Proofs.Shelf.Content

/-!
# Statements side by side

INSERTs under a key of their own, UPDATEs and DELETEs run at the same time, step by step. A step
lists a table, is granted the lock on a record, reads, replaces or removes the record's file, or lets
go of the lock. Any statement may take the next step, but a lock is granted only when nobody holds
it. A statement that runs alone does what it does when it is executed as a whole.
-/

namespace RecordShelf.Query
open Sql

/-! ## What a statement does with a record -/

/-- What is to be done with a record that has been read under its lock. -/
inductive Intent where
  | keep
  | replace (r : Record)
  | remove

namespace Intent

/-- Does it, and says whether anything was done. -/
def perform (table key : String) : Intent → ShelfM Bool
  | .keep => return false
  | .replace r => do
    ShelfM.put table key r
    return true
  | .remove => ShelfM.remove table key

/-- What it makes of the content of the record's file. -/
def apply (content : Option ByteArray) : Intent → Option ByteArray
  | .keep => content
  | .replace r => some (RecordFile.encode r)
  | .remove => none

variable {table key : String} {s s' : Shelf} {intent : Intent}

theorem moves_perform (table key : String) (intent : Intent) :
    Moves Shelf.Step (intent.perform table key) := by
  cases intent with
  | keep => exact .pure _
  | replace r => exact .bind (ShelfM.moves_put table key r) fun _ => .pure _
  | remove => exact ShelfM.moves_remove table key

theorem wellformed_of_perform {outcome : Except Error Bool} (hs : s.Wellformed)
    (h : (intent.perform table key).run s = (outcome, s')) : s'.Wellformed := by
  have hkept := (moves_perform table key intent).keeps (fun _ _ hstep => hstep.wellformed) hs
  rwa [h] at hkept

/-- What is done to a record changes the content of its file as intended, and no other one. -/
theorem content_of_perform {done : Bool} (hs : s.Wellformed)
    (h : (intent.perform table key).run s = (.ok done, s')) :
    s'.content (table, key) = intent.apply (s.content (table, key)) ∧
      ∀ place, place ≠ (table, key) → s'.content place = s.content place := by
  cases intent with
  | keep =>
    obtain rfl := (Prod.mk.inj h).2
    exact ⟨rfl, fun _ _ => rfl⟩
  | replace r =>
    obtain ⟨_, s₁, hput, hreturn⟩ := run_bind_ok h
    obtain rfl := (Prod.mk.inj hreturn).2
    have hwrites := ShelfM.writes_of_put hput
    exact ⟨hwrites.here, hwrites.others⟩
  | remove => exact ShelfM.content_of_remove hs h

/-- What fails changes no content. -/
theorem content_of_perform_error {e : Error}
    (h : (intent.perform table key).run s = (.error e, s')) (place : Place) :
    s'.content place = s.content place := by
  cases intent with
  | keep => exact absurd (Prod.mk.inj h).1 (by simp)
  | replace r =>
    cases hput : (ShelfM.put table key r).run s with
    | mk outcome s₁ =>
      cases outcome with
      | ok _ =>
        rw [perform, run_bind_of_ok hput] at h
        exact absurd (Prod.mk.inj h).1 (by simp)
      | error e =>
        rw [perform, run_bind_of_error hput] at h
        obtain rfl := (Prod.mk.inj h).2
        exact ShelfM.content_of_put_error hput place
  | remove => rw [ShelfM.shelf_of_remove_error h]

end Intent

/-- An INSERT whose record has a key of its own. -/
structure KeyedInsert (rules : Rules) where
  statement : Insert
  params : Params
  record : Record
  identity : Identity
  hrecord : insertRecord statement params = .ok record
  hfields : record.isEmpty = false
  hidentity : rules.identity.resolve statement.table record = some identity

/-- A statement that changes records one by one. -/
inductive Job (rules : Rules) where
  | insert (k : KeyedInsert rules)
  | update (s : Update) (params : Params)
  | delete (s : Delete) (params : Params)

namespace Job
variable {rules : Rules}

def table : Job rules → String
  | .insert k => k.statement.table
  | .update s _ => s.table
  | .delete s _ => s.table

def predicates : Job rules → List Predicate
  | .insert _ => []
  | .update s params =>
    (Predicate.bindAll (.startingAt params (bindAssignments s params).2) s.conditions).1
  | .delete s params => (Predicate.bindAll (.start params) s.conditions).1

/-- An INSERT overwrites or merges. UPDATE and DELETE check the record again: it has to be there and
to match still. -/
def intent (job : Job rules) (seen : Option Record) : Intent :=
  match job, seen with
  | .insert k, seen => .replace (mergeRecord k.statement.onDuplicate seen k.record)
  | .update _ _, none => .keep
  | .update s params, some r =>
    if rules.filter.matches r (Job.update s params : Job rules).predicates then
      .replace (assign rules.filter r (bindAssignments s params).1)
    else .keep
  | .delete _ _, none => .keep
  | .delete s params, some r =>
    if rules.filter.matches r (Job.delete s params : Job rules).predicates then .remove else .keep

/-- What a turn of a statement makes of the content of a record's file. -/
def effect (job : Job rules) (content : Option ByteArray) : Option ByteArray :=
  (job.intent (content.bind RecordFile.decode)).apply content

/-- The result after so many changes. -/
def result : Job rules → ℕ → Result
  | .insert k, _ => inserted k.identity.value
  | .update _ _, n => .affected n none
  | .delete _ _, n => .affected n none

/-- The statement as it is executed as a whole. -/
def execute (stamp : ℕ) : Job rules → ShelfM Result
  | .insert k => executeInsert rules stamp k.statement k.params
  | .update s params => executeUpdate rules s params
  | .delete s params => executeDelete rules s params

/-- A turn of a statement: it reads the record and does with it what it intends. -/
def turn (job : Job rules) (key : String) : ShelfM Bool := do
  let seen ← ShelfM.get job.table key
  (job.intent seen).perform job.table key

theorem updateKey_eq (s : Update) (params : Params) (key : String) :
    updateKey rules s.table (Job.update s params : Job rules).predicates
      (bindAssignments s params).1 key = (Job.update s params : Job rules).turn key := by
  refine congrArg (ShelfM.get s.table key >>= ·) (funext fun seen => ?_)
  cases seen with
  | none => rfl
  | some r =>
    dsimp only [intent]
    split_ifs <;> rfl

theorem deleteKey_eq (s : Delete) (params : Params) (key : String) :
    deleteKey rules s.table (Job.delete s params : Job rules).predicates key =
      (Job.delete s params : Job rules).turn key := by
  refine congrArg (ShelfM.get s.table key >>= ·) (funext fun seen => ?_)
  cases seen with
  | none => rfl
  | some r =>
    dsimp only [intent]
    split_ifs <;> rfl

end Job

/-! ## Steps -/

namespace Concurrent
variable {rules : Rules} {ι : Type}

/-- How far a statement has come: the key that it works on, those that it has yet to work on, and
how many records it has changed. -/
inductive Phase where
  | start
  | ready
  | between (rest : List String) (count : ℕ)
  | granted (key : String) (rest : List String) (count : ℕ)
  | read (key : String) (seen : Option Record) (rest : List String) (count : ℕ)
  | settled (key : String) (failure : Option Error) (rest : List String) (count : ℕ)
  | done (result : Except Error Result)

namespace Phase

/-- The key whose lock is held. -/
def held : Phase → Option String
  | .granted key _ _ => some key
  | .read key _ _ _ => some key
  | .settled key _ _ _ => some key
  | _ => none

/-- A statement that has failed, or will when it lets go of its lock. -/
inductive Failing : Phase → Prop
  | settled (key : String) (e : Error) (rest : List String) (count : ℕ) :
      Failing (.settled key (some e) rest count)
  | done (e : Error) : Failing (.done (.error e))

def checked : Except Error Bool → Phase
  | .error e => .done (.error e)
  | .ok false => .done (.ok (.affected 0 none))
  | .ok true => .ready

def listed : Except Error (List String) → Phase
  | .error e => .done (.error e)
  | .ok keys => .between keys 0

def after (failure : Option Error) (rest : List String) (count : ℕ) : Phase :=
  match failure with
  | none => .between rest count
  | some e => .done (.error e)

@[simp] theorem held_checked (made : Except Error Bool) : (checked made).held = none := by
  rcases made with e | made
  · rfl
  · cases made <;> rfl

@[simp] theorem held_listed (keys : Except Error (List String)) : (listed keys).held = none := by
  cases keys <;> rfl

@[simp] theorem held_after (failure : Option Error) (rest : List String) (count : ℕ) :
    (after failure rest count).held = none := by
  cases failure <;> rfl

end Phase

/-- Where a statement starts: a DELETE lists its table at once. -/
def opening : Job rules → Phase
  | .insert _ => .start
  | .update _ _ => .start
  | .delete _ _ => .ready

/-- A grant of a lock. -/
structure Turn (ι : Type) where
  who : ι
  /-- Whether the turn ended in an error. -/
  failed : Bool

/-- What a turn makes of the content of the record's file. A turn that ended in an error changes
nothing. -/
def Turn.effect (jobs : ι → Job rules) (t : Turn ι) (content : Option ByteArray) :
    Option ByteArray :=
  if t.failed then content else (jobs t.who).effect content

structure State (ι : Type) where
  shelf : Shelf
  phase : ι → Phase
  /-- Who holds the lock on a record. -/
  holder : Place → Option ι
  /-- Who was granted the lock on a record so far, the latest first. -/
  turns : Place → List (Turn ι)

/-- Marks the latest turn. -/
def markFailed : List (Turn ι) → List (Turn ι)
  | [] => []
  | t :: earlier => { t with failed := true } :: earlier

namespace State
variable [DecidableEq ι] (σ : State ι) (i : ι) (place : Place) (next : Phase)

def goes : State ι := { σ with phase := Function.update σ.phase i next }

@[simp] theorem goes_phase_self : (σ.goes i next).phase i = next := Function.update_self ..

theorem goes_phase_of_ne {i j : ι} (h : j ≠ i) : (σ.goes i next).phase j = σ.phase j :=
  Function.update_of_ne h ..

def grant : State ι :=
  { σ.goes i next with
    holder := Function.update σ.holder place (some i)
    turns := Function.update σ.turns place (⟨i, false⟩ :: σ.turns place) }

def release : State ι := { σ.goes i next with holder := Function.update σ.holder place none }

def fails : State ι :=
  { σ.goes i next with turns := Function.update σ.turns place (markFailed (σ.turns place)) }

end State

/-- What a statement may do next. -/
inductive Step [DecidableEq ι] (jobs : ι → Job rules) (i : ι) : State ι → State ι → Prop
  | insert {σ : State ι} {k : KeyedInsert rules} (hjob : jobs i = .insert k)
      (hphase : σ.phase i = .start) (hauto : σ.shelf.isAutoIncrement k.statement.table = false) :
      Step jobs i σ (σ.goes i (.between [k.identity.key] 0))
  | check {σ : State ι} {s : Update} {params : Params} (hjob : jobs i = .update s params)
      (hphase : σ.phase i = .start) :
      Step jobs i σ (σ.goes i (.checked (σ.shelf.tableExists s.table)))
  | scan {σ : State ι} (hphase : σ.phase i = .ready) :
      Step jobs i σ (σ.goes i (.listed
        ((matchingKeys rules (jobs i).table (jobs i).predicates).run σ.shelf).1))
  | grant {σ : State ι} {key : String} {rest : List String} {n : ℕ}
      (hphase : σ.phase i = .between (key :: rest) n)
      (hfree : σ.holder ((jobs i).table, key) = none) :
      Step jobs i σ (σ.grant i ((jobs i).table, key) (.granted key rest n))
  | read {σ : State ι} {key : String} {rest : List String} {n : ℕ} {seen : Option Record}
      (hphase : σ.phase i = .granted key rest n) (hget : σ.shelf.get (jobs i).table key = .ok seen) :
      Step jobs i σ (σ.goes i (.read key seen rest n))
  | unreadable {σ : State ι} {key : String} {rest : List String} {n : ℕ} {e : Error}
      (hphase : σ.phase i = .granted key rest n) (hget : σ.shelf.get (jobs i).table key = .error e) :
      Step jobs i σ (σ.fails i ((jobs i).table, key) (.settled key (some e) rest n))
  | act {σ : State ι} {key : String} {seen : Option Record} {rest : List String} {n : ℕ}
      {done : Bool} {s : Shelf} (hphase : σ.phase i = .read key seen rest n)
      (hrun : (((jobs i).intent seen).perform (jobs i).table key).run σ.shelf = (.ok done, s)) :
      Step jobs i σ
        { σ.goes i (.settled key none rest (n + if done then 1 else 0)) with shelf := s }
  | refused {σ : State ι} {key : String} {seen : Option Record} {rest : List String} {n : ℕ}
      {e : Error} {s : Shelf} (hphase : σ.phase i = .read key seen rest n)
      (hrun : (((jobs i).intent seen).perform (jobs i).table key).run σ.shelf = (.error e, s)) :
      Step jobs i σ
        { σ.fails i ((jobs i).table, key) (.settled key (some e) rest n) with shelf := s }
  | release {σ : State ι} {key : String} {failure : Option Error} {rest : List String} {n : ℕ}
      (hphase : σ.phase i = .settled key failure rest n) :
      Step jobs i σ (σ.release i ((jobs i).table, key) (.after failure rest n))
  | finish {σ : State ι} {n : ℕ} (hphase : σ.phase i = .between [] n) :
      Step jobs i σ (σ.goes i (.done (.ok ((jobs i).result n))))

section
variable [DecidableEq ι] {jobs : ι → Job rules} {i : ι} {σ : State ι}

/-- What is left of a state when a statement has run for a while: the shelf and its own phase are
others, no lock has changed hands for good. -/
structure Ran (σ : State ι) (i : ι) (s : Shelf) (next : Phase) (σ' : State ι) : Prop where
  shelf : σ'.shelf = s
  phase : σ'.phase = Function.update σ.phase i next
  holder : σ'.holder = σ.holder

theorem Ran.next {s₁ s₂ : Shelf} {p q : Phase} {σ₁ σ₂ : State ι} (h₁ : Ran σ i s₁ p σ₁)
    (h₂ : Ran σ₁ i s₂ q σ₂) : Ran σ i s₂ q σ₂ := by
  refine ⟨h₂.shelf, ?_, h₂.holder.trans h₁.holder⟩
  rw [h₂.phase, h₁.phase, Function.update_idem]

/-- Where a turn leads. -/
def afterTurn (rest : List String) (n : ℕ) : Except Error Bool → Phase
  | .ok done => .between rest (n + if done then 1 else 0)
  | .error e => .done (.error e)

/-- A turn whose work is done ends when the lock is let go. -/
theorem ran_release {key : String} {failure : Option Error} {rest : List String} {n : ℕ}
    {τ : State ι} (hfree : σ.holder ((jobs i).table, key) = none)
    (hphase : τ.phase = Function.update σ.phase i (.settled key failure rest n))
    (hholder : τ.holder = Function.update σ.holder ((jobs i).table, key) (some i)) :
    Step jobs i τ (τ.release i ((jobs i).table, key) (.after failure rest n)) ∧
      Ran σ i τ.shelf (.after failure rest n)
        (τ.release i ((jobs i).table, key) (.after failure rest n)) := by
  have hsettled : τ.phase i = .settled key failure rest n := by
    rw [hphase, Function.update_self]
  refine ⟨.release hsettled, rfl, ?_, ?_⟩
  · change Function.update τ.phase i _ = _
    rw [hphase, Function.update_idem]
  · change Function.update τ.holder _ none = _
    rw [hholder, Function.update_idem, ← hfree, Function.update_eq_self]

/-- Whoever has read a record does to it what it means to do, and lets the lock go. -/
theorem alone_reading {key : String} {seen : Option Record} {rest : List String} {n : ℕ}
    {τ : State ι} (hfree : σ.holder ((jobs i).table, key) = none)
    (hphase : τ.phase = Function.update σ.phase i (.read key seen rest n))
    (hholder : τ.holder = Function.update σ.holder ((jobs i).table, key) (some i)) :
    ∃ σ', Relation.ReflTransGen (Step jobs i) τ σ' ∧
      Ran σ i ((((jobs i).intent seen).perform (jobs i).table key).run τ.shelf).2
        (afterTurn rest n ((((jobs i).intent seen).perform (jobs i).table key).run τ.shelf).1) σ' := by
  have hreading : τ.phase i = .read key seen rest n := by
    rw [hphase, Function.update_self]
  have hphases : ∀ next, (τ.goes i next).phase = Function.update σ.phase i next := by
    intro next
    change Function.update τ.phase i next = _
    rw [hphase, Function.update_idem]
  cases hrun : (((jobs i).intent seen).perform (jobs i).table key).run τ.shelf with
  | mk outcome s =>
    cases outcome with
    | ok done =>
      have hact : Step jobs i τ _ := .act hreading hrun
      obtain ⟨hrelease, hran⟩ := @ran_release rules ι _ jobs i σ key none rest
        (n + if done then 1 else 0) { τ.goes i (.settled key none rest
          (n + if done then 1 else 0)) with shelf := s } hfree (hphases _) hholder
      exact ⟨_, (Relation.ReflTransGen.single hact).tail hrelease, hran⟩
    | error e =>
      have hrefused : Step jobs i τ _ := .refused hreading hrun
      obtain ⟨hrelease, hran⟩ := @ran_release rules ι _ jobs i σ key (some e) rest n
        { τ.fails i ((jobs i).table, key) (.settled key (some e) rest n) with shelf := s }
        hfree (hphases _) hholder
      exact ⟨_, (Relation.ReflTransGen.single hrefused).tail hrelease, hran⟩

theorem alone_turn {key : String} {rest : List String} {n : ℕ}
    (hphase : σ.phase i = .between (key :: rest) n)
    (hfree : σ.holder ((jobs i).table, key) = none) :
    ∃ σ', Relation.ReflTransGen (Step jobs i) σ σ' ∧
      Ran σ i (((jobs i).turn key).run σ.shelf).2
        (afterTurn rest n (((jobs i).turn key).run σ.shelf).1) σ' := by
  let granted := σ.grant i ((jobs i).table, key) (.granted key rest n)
  have hgrant : Step jobs i σ granted := .grant hphase hfree
  have hgranted : granted.phase i = .granted key rest n := Function.update_self ..
  cases hget : σ.shelf.get (jobs i).table key with
  | error e =>
    have hread : (ShelfM.get (jobs i).table key).run σ.shelf = (.error e, σ.shelf) := by
      rw [ShelfM.get, ShelfM.run_read, hget]
    have hfail : Step jobs i granted _ := .unreadable hgranted hget
    have hturn : ((jobs i).turn key).run σ.shelf = (.error e, σ.shelf) := run_bind_of_error hread
    have hsettled : (granted.fails i ((jobs i).table, key) (.settled key (some e) rest n)).phase =
        Function.update σ.phase i (.settled key (some e) rest n) := Function.update_idem ..
    obtain ⟨hrelease, hran⟩ := ran_release hfree hsettled rfl
    rw [hturn]
    exact ⟨_, ((Relation.ReflTransGen.single hgrant).tail hfail).tail hrelease, hran⟩
  | ok seen =>
    have hread : (ShelfM.get (jobs i).table key).run σ.shelf = (.ok seen, σ.shelf) := by
      rw [ShelfM.get, ShelfM.run_read, hget]
    have hturn : ((jobs i).turn key).run σ.shelf =
      (((jobs i).intent seen).perform (jobs i).table key).run σ.shelf := run_bind_of_ok hread
    have hseen : Step jobs i granted (granted.goes i (.read key seen rest n)) := .read hgranted hget
    have hreading : (granted.goes i (.read key seen rest n)).phase =
        Function.update σ.phase i (.read key seen rest n) := Function.update_idem ..
    obtain ⟨σ', hsteps, hran⟩ := alone_reading hfree hreading rfl
    rw [hturn]
    exact ⟨σ', ((Relation.ReflTransGen.single hgrant).tail hseen).trans hsteps, hran⟩

/-- Where the turns on several keys lead. -/
def afterTurns (n : ℕ) : Except Error ℕ → Phase
  | .ok m => .between [] (n + m)
  | .error e => .done (.error e)

theorem alone_turns {keys : List String} {n : ℕ} (hphase : σ.phase i = .between keys n)
    (hfree : ∀ key ∈ keys, σ.holder ((jobs i).table, key) = none) :
    ∃ σ', Relation.ReflTransGen (Step jobs i) σ σ' ∧
      Ran σ i ((countKeys (jobs i).turn keys).run σ.shelf).2
        (afterTurns n ((countKeys (jobs i).turn keys).run σ.shelf).1) σ' := by
  induction keys generalizing σ n with
  | nil =>
    refine ⟨σ, .refl, rfl, ?_, rfl⟩
    have hstays : afterTurns n (.ok 0) = σ.phase i := hphase.symm
    change σ.phase = Function.update σ.phase i (afterTurns n (.ok 0))
    rw [hstays, Function.update_eq_self]
  | cons key rest ih =>
    obtain ⟨hkey, hrest⟩ := List.forall_mem_cons.1 hfree
    obtain ⟨σ₁, hsteps, hran⟩ := alone_turn hphase hkey
    rw [countKeys]
    cases hturn : ((jobs i).turn key).run σ.shelf with
    | mk outcome s =>
      rw [hturn] at hran
      cases outcome with
      | error e =>
        rw [run_bind_of_error hturn]
        exact ⟨σ₁, hsteps, hran⟩
      | ok done =>
        have hbetween : σ₁.phase i = .between rest (n + if done then 1 else 0) := by
          rw [hran.phase, Function.update_self]
          rfl
        obtain ⟨σ₂, hmore, hlast⟩ := ih hbetween fun key hkey => by rw [hran.holder, hrest key hkey]
        rw [hran.shelf] at hlast
        rw [run_bind_of_ok hturn]
        refine ⟨σ₂, hsteps.trans hmore, ?_⟩
        have hwhole := hran.next hlast
        cases hcount : (countKeys (jobs i).turn rest).run s with
        | mk outcome s₂ =>
          rw [hcount] at hwhole
          cases outcome with
          | error e =>
            rw [run_bind_of_error hcount]
            exact hwhole
          | ok m =>
            rw [run_bind_of_ok hcount]
            rw [afterTurns, Nat.add_assoc] at hwhole
            exact hwhole

/-- The turns on several keys and the result. -/
def worked (job : Job rules) (keys : List String) : ShelfM Result := do
  return job.result (← countKeys job.turn keys)

theorem alone_worked {keys : List String} (hphase : σ.phase i = .between keys 0)
    (hfree : ∀ key ∈ keys, σ.holder ((jobs i).table, key) = none) :
    ∃ σ', Relation.ReflTransGen (Step jobs i) σ σ' ∧
      Ran σ i ((worked (jobs i) keys).run σ.shelf).2 (.done ((worked (jobs i) keys).run σ.shelf).1)
        σ' := by
  obtain ⟨σ₁, hsteps, hran⟩ := alone_turns hphase hfree
  rw [worked]
  cases hcount : (countKeys (jobs i).turn keys).run σ.shelf with
  | mk outcome s =>
    rw [hcount] at hran
    cases outcome with
    | error e =>
      rw [run_bind_of_error hcount]
      exact ⟨σ₁, hsteps, hran⟩
    | ok m =>
      have hbetween : σ₁.phase i = .between [] (0 + m) := by
        rw [hran.phase, Function.update_self]
        rfl
      have hlast : Ran σ₁ i s (.done (.ok ((jobs i).result (0 + m))))
          (σ₁.goes i (.done (.ok ((jobs i).result (0 + m))))) := ⟨hran.shelf, rfl, rfl⟩
      have hwhole := hran.next hlast
      have hsum : 0 + m = m := Nat.zero_add m
      rw [run_bind_of_ok hcount]
      refine ⟨_, hsteps.tail (.finish hbetween), ?_⟩
      rw [hsum] at hwhole ⊢
      exact hwhole

theorem shelf_matchingKeys (table : String) (predicates : List Predicate) (s : Shelf) :
    (matchingKeys rules table predicates).run s =
      (((matchingKeys rules table predicates).run s).1, s) := by
  have hread : (ShelfM.scan table).run s = (s.scan table, s) := ShelfM.run_read _ s
  rw [matchingKeys]
  cases hscan : s.scan table with
  | error e =>
    rw [hscan] at hread
    rw [run_bind_of_error hread]
  | ok rows =>
    rw [hscan] at hread
    rw [run_bind_of_ok hread]
    rfl

theorem Step.lists {keys : List String} {s : Shelf} (hphase : σ.phase i = .ready)
    (hkeys : (matchingKeys rules (jobs i).table (jobs i).predicates).run σ.shelf = (.ok keys, s)) :
    Step jobs i σ (σ.goes i (.between keys 0)) := by
  have hscan : Step jobs i σ _ := .scan hphase
  rw [hkeys] at hscan
  exact hscan

theorem alone_listed (hphase : σ.phase i = .ready)
    (hfree : ∀ key, σ.holder ((jobs i).table, key) = none) {act : ShelfM Result}
    (hact : act = do
      let keys ← matchingKeys rules (jobs i).table (jobs i).predicates
      worked (jobs i) keys) :
    ∃ σ', Relation.ReflTransGen (Step jobs i) σ σ' ∧
      Ran σ i (act.run σ.shelf).2 (.done (act.run σ.shelf).1) σ' := by
  have hrun : (matchingKeys rules (jobs i).table (jobs i).predicates).run σ.shelf =
      (((matchingKeys rules (jobs i).table (jobs i).predicates).run σ.shelf).1, σ.shelf) :=
    shelf_matchingKeys _ _ _
  subst hact
  cases hkeys : ((matchingKeys rules (jobs i).table (jobs i).predicates).run σ.shelf).1 with
  | error e =>
    have hscan : Step jobs i σ _ := .scan hphase
    rw [hkeys] at hscan hrun
    rw [run_bind_of_error hrun]
    exact ⟨_, .single hscan, rfl, rfl, rfl⟩
  | ok keys =>
    rw [hkeys] at hrun
    have hlists : Step jobs i σ (σ.goes i (.between keys 0)) := .lists hphase hrun
    obtain ⟨σ₁, hsteps, hran⟩ := alone_worked (State.goes_phase_self ..) fun key _ => hfree key
    have hfirst : Ran σ i σ.shelf (.between keys 0) (σ.goes i (.between keys 0)) := ⟨rfl, rfl, rfl⟩
    rw [run_bind_of_ok hrun]
    exact ⟨σ₁, (Relation.ReflTransGen.single hlists).trans hsteps, hfirst.next hran⟩

theorem insertUnder_eq (k : KeyedInsert rules) (s : Shelf) :
    (insertUnder k.statement.table k.statement.onDuplicate k.identity k.record).run s =
      (worked (Job.insert k) [k.identity.key]).run s := by
  have hread : (ShelfM.get k.statement.table k.identity.key).run s =
      (s.get k.statement.table k.identity.key, s) := ShelfM.run_read _ s
  rw [insertUnder]
  cases hget : s.get k.statement.table k.identity.key with
  | error e =>
    rw [hget] at hread
    have hturn : (Job.turn (.insert k) k.identity.key).run s = (.error e, s) :=
      run_bind_of_error hread
    have hworked : (worked (Job.insert k) [k.identity.key]).run s = (.error e, s) :=
      run_bind_of_error (run_bind_of_error hturn)
    rw [run_bind_of_error hread, hworked]
  | ok seen =>
    rw [hget] at hread
    rw [run_bind_of_ok hread]
    cases hput : (ShelfM.put k.statement.table k.identity.key
        (mergeRecord k.statement.onDuplicate seen k.record)).run s with
    | mk outcome s' =>
      cases outcome with
      | error e =>
        have hturn : (Job.turn (.insert k) k.identity.key).run s = (.error e, s') :=
          (run_bind_of_ok hread).trans (run_bind_of_error hput)
        have hworked : (worked (Job.insert k) [k.identity.key]).run s = (.error e, s') :=
          run_bind_of_error (run_bind_of_error hturn)
        rw [run_bind_of_error hput, hworked]
      | ok _ =>
        have hturn : (Job.turn (.insert k) k.identity.key).run s = (.ok true, s') :=
          (run_bind_of_ok hread).trans (run_bind_of_ok hput)
        have hcount : (countKeys (Job.insert k).turn [k.identity.key]).run s = (.ok 1, s') :=
          run_bind_of_ok hturn
        have hworked : (worked (Job.insert k) [k.identity.key]).run s =
            (.ok (inserted k.identity.value), s') := run_bind_of_ok hcount
        rw [run_bind_of_ok hput, hworked]
        rfl

theorem executeInsert_eq (stamp : ℕ) (k : KeyedInsert rules) {s : Shelf}
    (hauto : s.isAutoIncrement k.statement.table = false) :
    (executeInsert rules stamp k.statement k.params).run s =
      (worked (Job.insert k) [k.identity.key]).run s := by
  have hrecord : (ShelfM.read fun _ => insertRecord k.statement k.params).run s =
      (.ok k.record, s) := by
    rw [ShelfM.run_read, k.hrecord]
  rw [executeInsert, run_bind_of_ok hrecord]
  simp only [k.hfields, Bool.false_eq_true, if_false]
  rw [run_bind_of_ok (ShelfM.run_getThe s)]
  simp only [hauto, Bool.false_eq_true, if_false, k.hidentity]
  exact insertUnder_eq k s

theorem executeUpdate_eq (s : Update) (params : Params) :
    executeUpdate rules s params = (do
      if ← ShelfM.read (·.tableExists s.table) then do
        let keys ← matchingKeys rules s.table (Job.update s params : Job rules).predicates
        worked (Job.update s params : Job rules) keys
      else return .affected 0 none) := by
  have hturn : (Job.update s params : Job rules).turn = updateKey rules s.table
      (Job.update s params : Job rules).predicates (bindAssignments s params).1 :=
    funext fun key => (Job.updateKey_eq s params key).symm
  simp only [worked, hturn]
  rfl

theorem executeDelete_eq (s : Delete) (params : Params) :
    executeDelete rules s params = (do
      let keys ← matchingKeys rules s.table (Job.delete s params : Job rules).predicates
      worked (Job.delete s params : Job rules) keys) := by
  have hturn : (Job.delete s params : Job rules).turn =
      deleteKey rules s.table (Job.delete s params : Job rules).predicates :=
    funext fun key => (Job.deleteKey_eq s params key).symm
  simp only [worked, hturn]
  rfl

/-- A statement that runs alone, with the locks of its table free, does to the shelf what it does
when it is executed as a whole, and has the same result. -/
theorem alone_execute (stamp : ℕ) (hopen : σ.phase i = opening (jobs i))
    (hfree : ∀ key, σ.holder ((jobs i).table, key) = none)
    (hauto : ∀ k, jobs i = .insert k → σ.shelf.isAutoIncrement k.statement.table = false) :
    ∃ σ', Relation.ReflTransGen (Step jobs i) σ σ' ∧
      Ran σ i (((jobs i).execute stamp).run σ.shelf).2
        (.done (((jobs i).execute stamp).run σ.shelf).1) σ' := by
  cases hjob : jobs i with
  | insert k =>
    have hstart : σ.phase i = .start := by rw [hopen, hjob, opening]
    have hbetween : (σ.goes i (.between [k.identity.key] 0)).phase i =
        .between [k.identity.key] 0 := Function.update_self ..
    obtain ⟨σ₁, hsteps, hran⟩ := alone_worked hbetween fun key _ => hfree key
    have hfirst : Ran σ i σ.shelf (.between [k.identity.key] 0)
        (σ.goes i (.between [k.identity.key] 0)) := ⟨rfl, rfl, rfl⟩
    have hshelf : (σ.goes i (.between [k.identity.key] 0)).shelf = σ.shelf := rfl
    rw [hjob, hshelf, ← executeInsert_eq stamp k (hauto k hjob)] at hran
    exact ⟨σ₁, (Relation.ReflTransGen.single (.insert hjob hstart (hauto k hjob))).trans hsteps,
      hfirst.next hran⟩
  | update s params =>
    have hstart : σ.phase i = .start := by rw [hopen, hjob, opening]
    have hcheck : Step jobs i σ _ := .check hjob hstart
    have hread : (ShelfM.read (·.tableExists s.table)).run σ.shelf =
        (σ.shelf.tableExists s.table, σ.shelf) := ShelfM.run_read _ _
    rw [Job.execute, executeUpdate_eq]
    cases hexists : σ.shelf.tableExists s.table with
    | error e =>
      rw [hexists] at hcheck hread
      rw [run_bind_of_error hread]
      exact ⟨_, .single hcheck, rfl, rfl, rfl⟩
    | ok made =>
      rw [hexists] at hcheck hread
      rw [run_bind_of_ok hread]
      cases made with
      | false => exact ⟨_, .single hcheck, rfl, rfl, rfl⟩
      | true =>
        have hready : (σ.goes i .ready).phase i = .ready := Function.update_self ..
        obtain ⟨σ₁, hsteps, hran⟩ := @alone_listed rules ι _ jobs i _ hready hfree _ rfl
        have hfirst : Ran σ i σ.shelf .ready (σ.goes i .ready) := ⟨rfl, rfl, rfl⟩
        rw [hjob] at hran
        exact ⟨σ₁, (Relation.ReflTransGen.single hcheck).trans hsteps, hfirst.next hran⟩
  | delete s params =>
    have hready : σ.phase i = .ready := by rw [hopen, hjob, opening]
    have hwhole : Job.execute stamp (jobs i) = (do
        let keys ← matchingKeys rules (jobs i).table (jobs i).predicates
        worked (jobs i) keys) := by
      rw [hjob]
      exact executeDelete_eq s params
    have hlisted := alone_listed hready hfree hwhole
    rw [hjob] at hlisted
    exact hlisted

end

end Concurrent

end RecordShelf.Query

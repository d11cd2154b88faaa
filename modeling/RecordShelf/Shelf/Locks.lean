import RecordShelf.Named

/-!
# Locks on records

Work on one record is done by one holder at a time. A table of names leads to a mutex for each record
that is locked; whoever holds or awaits a mutex has a reference to it, and so has the table. A mutex is
granted to those who asked for it in the order in which they asked. Who lets go of one passes it on
first, and then strikes it from the table if no reference but that of the table is left. Who lets go
of a lock before it is granted still has its turn, and lets go at once.
-/

namespace RecordShelf

/-- The turn of someone who asked for the lock on a record. -/
structure Turn where
  id : String
  name : String
  /-- Whether the lock will be let go at once. -/
  released : Bool
  deriving DecidableEq, Repr

/-- A mutex, with those who hold a reference to it counted. -/
structure Mutex where
  references : Nat
  holder : Option Turn
  waiting : List Turn
  deriving DecidableEq, Repr

namespace Mutex

/-- A mutex that nobody has asked for. -/
def new : Mutex := ⟨1, none, []⟩

def refer (m : Mutex) : Mutex := { m with references := m.references + 1 }

def forget (m : Mutex) : Mutex := { m with references := m.references - 1 }

def isFree (m : Mutex) : Bool := m.holder.isNone

/-- Takes a free mutex, or waits for it. -/
def lock (m : Mutex) (turn : Turn) : Mutex :=
  if m.isFree then { m with holder := some turn } else { m with waiting := m.waiting ++ [turn] }

/-- Passes the mutex on to the first who waits, and forgets who held it. -/
def unlock (m : Mutex) : Mutex :=
  { m.forget with holder := m.waiting.head?, waiting := m.waiting.tail }

def isHeldBy (m : Mutex) (id : String) : Bool := m.holder.any (·.id == id)

/-- Marks the turns that someone waits for. -/
def giveUp (id : String) (m : Mutex) : Mutex :=
  { m with waiting := m.waiting.map fun t => if t.id = id then { t with released := true } else t }

end Mutex

/-- The addresses of the mutexes in use by the names of their records, and every mutex at its
address. -/
structure Locks where
  named : Named Nat
  mutexes : List Mutex

namespace Locks

def empty : Locks := ⟨[], []⟩

/-- The name of the lock on a record. -/
def name (table key : String) : String := table ++ "/" ++ key

/-- Locks that are held or awaited. -/
def size (l : Locks) : Nat := l.named.length

def change (l : Locks) (address : Nat) (f : Mutex → Mutex) : Locks :=
  { l with mutexes := l.mutexes.modify address f }

/-- The address of the mutex with a name, which is made if there is none. -/
def find (l : Locks) (name : String) : Locks × Nat :=
  match l.named.get? name with
  | some address => (l, address)
  | none =>
    (⟨l.named.insert name l.mutexes.length, l.mutexes ++ [Mutex.new]⟩, l.mutexes.length)

/-- Asks for a lock. Gives who was granted it. -/
def ask (l : Locks) (turn : Turn) : Locks × List String :=
  let (l, address) := l.find turn.name
  let free := l.mutexes[address]?.any Mutex.isFree
  (l.change address fun m => m.refer.lock turn, if free then [turn.id] else [])

/-- Strikes a mutex that only the table refers to. -/
def prune (l : Locks) (name : String) : Locks :=
  match l.named.get? name with
  | none => l
  | some address =>
    if l.mutexes[address]?.any (·.references = 1) then
      { l.change address .forget with named := l.named.erase name }
    else l

/-- Lets go of the mutex at an address, and strikes it if it is no longer in use. -/
def drop (l : Locks) (address : Nat) (turn : Turn) : Locks :=
  (l.change address .unlock).prune turn.name

/-- Lets go of the mutex at an address, as does each who then is granted it and has let go of it
before. Gives those who were granted the mutex. -/
def passOn (l : Locks) (address : Nat) (holder : Turn) : List Turn → Locks × List String
  | [] => (l.drop address holder, [])
  | next :: waiting =>
    if next.released then
      let (l, granted) := passOn (l.drop address holder) address next waiting
      (l, next.id :: granted)
    else (l.drop address holder, [next.id])

/-- The address of the mutex that someone holds. -/
def heldBy (l : Locks) (id : String) : Option Nat := l.mutexes.findIdx? (·.isHeldBy id)

def giveUp (l : Locks) (id : String) : Locks := { l with mutexes := l.mutexes.map (·.giveUp id) }

/-- Whoever holds the mutex at an address lets go of it. -/
def vacate (l : Locks) (address : Nat) : Locks × List String :=
  match l.mutexes[address]? with
  | some ⟨_, some holder, waiting⟩ => l.passOn address holder waiting
  | _ => (l, [])

/-- Lets go of the lock that someone holds or awaits; who does neither is passed over. Gives those
who were granted a lock. -/
def release (l : Locks) (id : String) : Locks × List String :=
  match l.heldBy id with
  | some address => l.vacate address
  | none => (l.giveUp id, [])

/-- Asks for the lock on a record, and lets go of the one that was asked for before. Gives those who
were granted a lock. -/
def acquire (l : Locks) (id table key : String) : Locks × List String :=
  let (asked, granted) := (l.giveUp id).ask ⟨id, name table key, false⟩
  match l.heldBy id with
  | some address =>
    let (left, passed) := asked.vacate address
    (left, granted ++ passed)
  | none => (asked, granted)

end Locks

end RecordShelf

/-!
# Periodic sweeps

A sweeper started at some moment is due after every whole period from then on. Between two looks at
the clock only the last due moment matters: what was too old before is too old then.
-/

namespace RecordShelf

structure Sweeper where
  start : Nat
  period : Nat
  deriving DecidableEq, Repr

/-- The last moment after `before` and up to `now` at which a sweep was due. -/
def Sweeper.lastDue? (s : Sweeper) (before now : Nat) : Option Nat :=
  let periods := (now - s.start) / s.period
  let due := s.start + periods * s.period
  if 0 < periods ∧ before < due then some due else none

end RecordShelf

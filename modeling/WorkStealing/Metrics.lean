import WorkStealing.Context

/-!
# Metrics

The counters of a driver, and the snapshot of them that it shows to its operators.
-/

namespace WorkStealing

/-- What a driver counts. -/
structure Counters where
  gives : Nat := 0
  takesOwn : Nat := 0
  takesActive : Nat := 0
  takesStaged : Nat := 0
  steals : Nat := 0
  groupSteals : Nat := 0
  emptyTakes : Nat := 0
  done : Nat := 0
  /-- Tasks given and not yet done. -/
  outstanding : Nat := 0
  /-- The largest number of outstanding tasks so far. -/
  maxLoad : Nat := 0
deriving DecidableEq, Repr, Inhabited

namespace Counters

/-- Count a take under its source. -/
def recordTake (c : Counters) : Source → Counters
  | .own _ => { c with takesOwn := c.takesOwn + 1 }
  | .active _ => { c with takesActive := c.takesActive + 1 }
  | .staged _ => { c with takesStaged := c.takesStaged + 1 }
  | .stolen _ _ => { c with steals := c.steals + 1 }
  | .stolenFromGroup _ _ => { c with groupSteals := c.groupSteals + 1 }

/-- Count a task that comes in. -/
def entered (c : Counters) : Counters :=
  { c with outstanding := c.outstanding + 1, maxLoad := max c.maxLoad (c.outstanding + 1) }

/-- Count a task that leaves; the count stops at 0. -/
def left (c : Counters) : Counters := { c with outstanding := c.outstanding - 1 }

/-- Takes that found a task. -/
def takes (c : Counters) : Nat :=
  c.takesOwn + c.takesActive + c.takesStaged + c.steals + c.groupSteals

/-- The part of the takes that were steals; no takes at all count as no steals. -/
def stealRatio (c : Counters) : Float :=
  if c.takes = 0 then 0
  else (UInt64.ofNat (c.steals + c.groupSteals)).toFloat / (UInt64.ofNat c.takes).toFloat

theorem takes_recordTake (c : Counters) (s : Source) : (c.recordTake s).takes = c.takes + 1 := by
  cases s <;> simp [recordTake, takes] <;> omega

theorem outstanding_recordTake (c : Counters) (s : Source) :
    (c.recordTake s).outstanding = c.outstanding := by
  cases s <;> rfl

end Counters

/-- A driver's counters together with what its pool and contexts add. -/
structure Metrics where
  workers : Nat
  counters : Counters
  repels : Nat
  stagedGroups : Nat
  affinityGroups : Nat
  contexts : List ContextStats
deriving DecidableEq, Repr, Inhabited

end WorkStealing

import WorkStealing.Ident
import WorkStealing.Store.Arena

/-!
# Sources of tasks

Where a taken task came from, and what a taker remembers for its next search.
-/

namespace WorkStealing

/-- Where a taken task came from. -/
inductive Source where
  /-- The taker's own queue. -/
  | own (level : Nat)
  /-- The group that the taker drains. -/
  | active (group : ArenaIndex)
  /-- A group that the taker has just adopted. -/
  | staged (group : ArenaIndex)
  /-- Another worker's queue. -/
  | stolen (victim : Location) (level : Nat)
  /-- The group that another worker drains. -/
  | stolenFromGroup (victim : Location) (group : ArenaIndex)
deriving DecidableEq, Repr, Inhabited

namespace Source

/-- The group that a task came from, if any. -/
def group? : Source → Option ArenaIndex
  | .active g | .staged g | .stolenFromGroup _ g => some g
  | .own _ | .stolen _ _ => none

/-- Whether a task was another worker's. -/
def isSteal : Source → Bool
  | .stolen _ _ | .stolenFromGroup _ _ => true
  | .own _ | .active _ | .staged _ => false

end Source

/-- A task on its way from a queue to its taker. -/
structure Taken where
  task : TaskHandle
  source : Source
deriving DecidableEq, Repr, Inhabited

/-- Where a taker looks first when it has to steal. -/
structure StealCursor where
  /-- The worker to try first. -/
  victim : Option Nat := none
  /-- Level of the last task taken from a worker's queue. -/
  level : Nat := 0
deriving DecidableEq, Repr, Inhabited

/-- The first cursor of a worker: it starts with its neighbor, if it has one. -/
def StealCursor.forWorker (index count : Nat) : StealCursor :=
  { victim := if 1 < count then some ((index + 1) % count) else none }

end WorkStealing

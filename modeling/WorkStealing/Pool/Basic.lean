import WorkStealing.Hint
import WorkStealing.Queue.AffinityGroup
import WorkStealing.Queue.Levels
import WorkStealing.Queue.Staging
import WorkStealing.SchedulerConfig
import WorkStealing.Source

/-!
# Pools

The queues of all workers of one node together with their affinity groups. A group is found by its
key through the directory, stored in the arena, staged while it waits for a worker, and noted at the
worker that drains it.
-/

namespace WorkStealing

/-- What belongs to one worker. -/
structure Seat where
  /-- The worker's own queues. -/
  lane : Levels
  /-- Set by a task that arrives, cleared by the worker that finds its queues empty. -/
  available : Bool := false
  /-- Steals repelled since the worker last became available. -/
  attempts : Nat := 0
  /-- The group that the worker drains. -/
  active : Option ArenaIndex := none
deriving Inhabited

/-- All queues of one node. -/
structure Pool where
  seats : List Seat
  groups : Arena AffinityGroup := {}
  /-- Where the group of a key is stored. -/
  directory : List (AffinityKey × ArenaIndex) := []
  staging : Staging
  /-- Steals that a worker with tasks repels. -/
  maxRepels : Nat
  /-- Whether affinity hints count. -/
  affinity : Bool
  /-- Tasks that one deque may hold. -/
  dequeCapacity : Nat
  /-- Steals repelled so far. -/
  repels : Nat := 0
deriving Inhabited

namespace Pool

/-- An empty pool of the configured sizes. -/
def new (c : SchedulerConfig) (auto : Nat) : Pool :=
  let lane := (Levels.new c.priorityLevels c.dequeCapacity).withDefaultLevel (c.clampLevel none)
  { seats := List.replicate (c.resolvedWorkers auto) { lane := lane }
    staging := .new (c.resolvedStagingSlots auto) c.stagingSlotCapacity
    maxRepels := c.maxStealRepels.toNat
    affinity := c.affinity
    dequeCapacity := c.dequeCapacity }

def workerCount (p : Pool) : Nat := p.seats.length

def seat? (p : Pool) (w : Location) : Option Seat := p.seats[w.index]?

/-- Replace what belongs to the worker at a position. -/
def setSeat (p : Pool) (i : Nat) (s : Seat) : Pool := { p with seats := p.seats.set i s }

/-- The index of a key's group. -/
def indexOf? (p : Pool) (key : AffinityKey) : Option ArenaIndex := p.directory.lookup key

/-- A key's group. -/
def group? (p : Pool) (key : AffinityKey) : Option AffinityGroup :=
  (p.indexOf? key).bind p.groups.get?

/-- Put a changed group in its place. -/
def setGroup (p : Pool) (i : ArenaIndex) (g : AffinityGroup) : Pool :=
  { p with groups := p.groups.set i g }

/-- Make a group for a key, unless there is one. -/
def createGroup (p : Pool) (key : AffinityKey) : Pool × ArenaIndex :=
  match p.indexOf? key with
  | some i => (p, i)
  | none =>
    let (i, groups) := p.groups.insert (.new key p.dequeCapacity)
    ({ p with groups := groups, directory := (key, i) :: p.directory }, i)

/-- Remove a group that is new, empty and has nothing in flight. -/
def retireGroup (p : Pool) (key : AffinityKey) : Pool × Except SchedError Unit :=
  match p.indexOf? key with
  | none => (p, .error (.violation (.retiredUnknown key)))
  | some i =>
    match p.groups.get? i with
    | some g =>
      if g.isIdle then
        ({ p with
            groups := ((p.groups.remove i).map Prod.snd).getD p.groups
            directory := p.directory.filter fun e => e.1 ≠ key },
          .ok ())
      else (p, .error (.violation (.retiredBusy key g.state g.size g.inFlight)))
    | none => ({ p with directory := p.directory.filter fun e => e.1 ≠ key }, .ok ())

/-- Note that a task of the group at an index is done. -/
def groupTaskDone (p : Pool) (i : ArenaIndex) : Pool :=
  match p.groups.get? i with
  | some g => p.setGroup i g.done
  | none => p

/-- The key of the group that a worker drains. -/
def activeKey? (p : Pool) (w : Location) : Option AffinityKey :=
  ((p.seat? w).bind Seat.active).bind fun i => (p.groups.get? i).map AffinityGroup.key

def groupCount (p : Pool) : Nat := p.groups.size

def isAvailable (p : Pool) (w : Location) : Bool := ((p.seat? w).map Seat.available).getD false

def stealAttempts (p : Pool) (w : Location) : Nat := ((p.seat? w).map Seat.attempts).getD 0

/-- The pool's sizes, for a person to read. -/
def shown (p : Pool) : String :=
  Text.shownRecord "RootArray"
    [("workers", Text.shownNat p.workerCount), ("groups", Text.shownNat p.groupCount),
      ("staging", Text.shownNat p.staging.size)]

@[simp] theorem workerCount_setSeat (p : Pool) (i : Nat) (s : Seat) :
    (p.setSeat i s).workerCount = p.workerCount := by
  simp [setSeat, workerCount]

@[simp] theorem workerCount_setGroup (p : Pool) (i : ArenaIndex) (g : AffinityGroup) :
    (p.setGroup i g).workerCount = p.workerCount := rfl

theorem workerCount_new (c : SchedulerConfig) (auto : Nat) :
    (new c auto).workerCount = c.resolvedWorkers auto := by
  simp [new, workerCount]

end Pool

end WorkStealing

import WorkStealing.SchedError

/-!
# Scheduler configuration

The sizes of a scheduler. Some sizes may be left to the machine; the functions that resolve them take
the machine's degree of parallelism as an argument.
-/

namespace WorkStealing

/-- The sizes of a scheduler. -/
structure SchedulerConfig where
  /-- Number of workers; 0 leaves it to the machine. -/
  workers : Nat := 0
  /-- Urgency levels of each worker. -/
  priorityLevels : Nat := 4
  /-- Level of tasks that come without one. -/
  defaultPriority : UInt32 := 1
  /-- Tasks that one deque may hold. -/
  dequeCapacity : Nat := 1048576
  /-- Staging slots; 0 means one per worker. -/
  stagingSlots : Nat := 0
  /-- Groups that one staging slot may hold. -/
  stagingSlotCapacity : Nat := 1024
  /-- Attempts that a worker with tasks repels before one may steal from it. -/
  maxStealRepels : UInt32 := 0
  /-- Whether affinity hints count. -/
  affinity : Bool := true
deriving DecidableEq, Repr, Inhabited

namespace SchedulerConfig

/-- The largest size that a configuration can name. -/
def maxSize : Nat := UInt64.size - 1

/-- The usual sizes for a number of workers. -/
def withWorkers (workers : Nat) : SchedulerConfig := { workers := workers }

/-- Number of workers on a machine that runs `auto` at once. -/
def resolvedWorkers (c : SchedulerConfig) (auto : Nat) : Nat :=
  if c.workers = 0 then auto else c.workers

def resolvedStagingSlots (c : SchedulerConfig) (auto : Nat) : Nat :=
  if c.stagingSlots = 0 then c.resolvedWorkers auto else c.stagingSlots

/-- Groups that can be staged at once, over all slots; it stops at the largest size. -/
def stagingCapacity (c : SchedulerConfig) (auto : Nat) : Nat :=
  min (c.resolvedStagingSlots auto * c.stagingSlotCapacity) maxSize

/-- The level that a wish comes to: no wish is the usual level, too high a wish the last level. -/
def clampLevel (c : SchedulerConfig) (wish : Option UInt32) : Nat :=
  min (wish.getD c.defaultPriority).toNat (c.priorityLevels - 1)

/-- The first size that no scheduler can be built with, if any. -/
def fault? (c : SchedulerConfig) (auto : Nat) : Option SetupFault :=
  if c.priorityLevels = 0 then some .noLevels
  else if c.dequeCapacity = 0 then some .noDequeCapacity
  else if c.stagingSlotCapacity = 0 then some .noStagingCapacity
  else if UInt32.size ≤ c.resolvedWorkers auto then some .tooManyWorkers
  else none

def validate (c : SchedulerConfig) (auto : Nat) : Except SchedError Unit :=
  match c.fault? auto with
  | some f => .error (.config f)
  | none => .ok ()

theorem validate_eq_ok_iff (c : SchedulerConfig) (auto : Nat) :
    c.validate auto = .ok () ↔
      0 < c.priorityLevels ∧ 0 < c.dequeCapacity ∧ 0 < c.stagingSlotCapacity ∧
        c.resolvedWorkers auto < UInt32.size := by
  rw [validate, fault?]
  split
  next f h =>
    simp only [reduceCtorEq, false_iff]
    intro ⟨h1, h2, h3, h4⟩
    rw [if_neg (by omega), if_neg (by omega), if_neg (by omega), if_neg (by omega)] at h
    cases h
  next h =>
    simp only [true_iff]
    repeat' split at h
    all_goals grind

end SchedulerConfig

end WorkStealing

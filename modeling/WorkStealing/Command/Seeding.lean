import WorkStealing.Driver.Lifecycle

/-!
# Seeding

The tasks that a node starts with. Their handles are unique in a cluster, as the node's number fills
the upper bits. Tasks take the priority levels and the affinity groups in turn; since every group may
be staged at once, the groups must fit the staging slots before the first task is given.
-/

namespace WorkStealing.Command

/-- Why seeding failed. -/
inductive SeedingError where
  | tooManyGroups (groups capacity slots groupsPerSlot : Nat)
  | scheduler (cause : SchedError)
deriving DecidableEq, Repr, Inhabited

def SeedingError.message : SeedingError → String
  | .tooManyGroups groups capacity slots groupsPerSlot =>
    "--affinity-groups " ++ Nat.repr groups ++ " exceeds the staging capacity of "
      ++ Nat.repr capacity ++ " (" ++ Nat.repr slots ++ " slots of " ++ Nat.repr groupsPerSlot
      ++ " groups each)"
  | .scheduler e => e.message

/-- The handle of a node's task of some number. -/
def taskHandle (node : UInt32) (n : UInt64) : TaskHandle := ⟨node.toUInt64 <<< 40 ||| n⟩

/-- Whether staging holds so many groups at once. Without affinity, groups do not count. -/
def checkGroups (c : SchedulerConfig) (auto groups : Nat) : Except SeedingError Unit :=
  if c.affinity ∧ c.stagingCapacity auto < groups then
    .error (.tooManyGroups groups (c.stagingCapacity auto) (c.resolvedStagingSlots auto)
      c.stagingSlotCapacity)
  else .ok ()

/-- Where the task of some number goes. -/
def seedHint (levels groups n : Nat) : Hint :=
  let hint := Hint.ofPriority (UInt32.ofNat (n % levels))
  if 0 < groups then { hint with affinity := some ⟨UInt64.ofNat (n % groups)⟩ } else hint

/-- Give the tasks from a number on, so many of them, up to the first that fails. -/
def giveFrom (c : ContextId) (node : UInt32) (levels groups : Nat) :
    Nat → Nat → Driver → Driver × Except SchedError Unit
  | 0, _, d => (d, .ok ())
  | left + 1, n, d =>
    match d.give c (taskHandle node (UInt64.ofNat n)) (seedHint levels groups n) with
    | (d', .ok ()) => giveFrom c node levels groups left (n + 1) d'
    | (d', .error e) => (d', .error e)

/-- Create the groups with the first keys. -/
def createGroups (groups : Nat) (d : Driver) : Driver :=
  (List.range groups).foldl (fun d g => d.createGroup ⟨UInt64.ofNat g⟩) d

/-- Give a node the tasks that it starts with, on a machine that runs `auto` workers at once. -/
def seed (d : Driver) (auto : Nat) (node : UInt32) (tasks groups : Nat) :
    Driver × Except SeedingError Unit :=
  match checkGroups d.config auto groups with
  | .error e => (d, .error e)
  | .ok () =>
    match d.openContext (.ofIndex 0) with
    | (d', .error e) => (d', .error (.scheduler e))
    | (d', .ok c) =>
      let levels := max d.config.priorityLevels 1
      match giveFrom c node levels groups tasks 1 (createGroups groups d') with
      | (d'', .ok ()) => (d'', .ok ())
      | (d'', .error e) => (d'', .error (.scheduler e))

end WorkStealing.Command

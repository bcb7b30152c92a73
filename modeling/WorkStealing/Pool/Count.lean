import WorkStealing.Pool.Basic

/-!
# Counting a pool

How much a pool holds: in total, at one level, at one worker, or in groups that wait.
-/

namespace WorkStealing.Pool

/-- Tasks in the workers' own queues. -/
def laneTasks (p : Pool) : List TaskHandle := p.seats.flatMap fun s => s.lane.tasks

/-- Tasks in affinity groups. -/
def groupTasks (p : Pool) : List TaskHandle := p.groups.values.flatMap AffinityGroup.tasks

/-- Everything queued. -/
def tasks (p : Pool) : List TaskHandle := p.laneTasks ++ p.groupTasks

/-- Whether anything waits: a task in a queue, or a staged group. -/
def isBusy (p : Pool) : Bool :=
  p.seats.any (fun s => !s.lane.isEmpty) || !p.staging.isEmpty
    || p.groups.values.any fun g => !g.isEmpty

/-- What the pool says about how much it holds. -/
def count (p : Pool) : CountScope → Count
  | .any => .ofAny p.isBusy
  | .all =>
    .exact (sumOf (fun s => s.lane.size) p.seats + sumOf AffinityGroup.size p.groups.values)
  | .level level => .exact (sumOf (fun s => ((s.lane.count (.level level)).value).getD 0) p.seats)
  | .worker w => ((p.seat? w).map fun s => s.lane.count .all).getD (.exact 0)
  | .staging => .exact p.staging.size

/-- The total is the number of queued tasks. -/
theorem count_all (p : Pool) : p.count .all = .exact p.tasks.length := by
  rw [count, tasks, List.length_append, laneTasks, groupTasks, length_flatMap, length_flatMap]
  simp only [Levels.size_eq_length, AffinityGroup.tasks, WorkDeque.length_tasks]
  rfl

end WorkStealing.Pool

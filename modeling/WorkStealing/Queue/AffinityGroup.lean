import WorkStealing.Queue.WorkDeque

/-!
# Affinity groups

Tasks that belong together share a queue and are drained by one worker at a time. A group that gets
its first task is published once, so that a worker can adopt it; the worker that adopted it lets go
of it on finding it empty, and the next task publishes it again.
-/

namespace WorkStealing

/-- Where an affinity group is in its life. State and drainer stand here as one value: every step to
active sets both, the step from active back to new resets both, and no other step touches the
drainer. -/
inductive Stage where
  /-- Not published. -/
  | new
  /-- Published, waiting for a worker. -/
  | staged
  /-- Drained by one worker. -/
  | active (drainer : Location)
deriving DecidableEq, Repr, Inhabited

namespace Stage

def state : Stage → GroupState
  | .new => .new
  | .staged => .staged
  | .active _ => .active

def drainer? : Stage → Option Location
  | .active w => some w
  | _ => none

end Stage

/-- A queue of tasks that share an affinity key. -/
structure AffinityGroup where
  key : AffinityKey
  queue : WorkDeque
  stage : Stage := .new
  /-- Tasks taken from the group and not yet reported done. -/
  inFlight : Nat := 0
  /-- How often the group was published. -/
  stagings : Nat := 0
deriving Inhabited

namespace AffinityGroup

def new (key : AffinityKey) (capacity : Nat) : AffinityGroup :=
  { key := key, queue := .new capacity }

def tasks (g : AffinityGroup) : List TaskHandle := g.queue.tasks

def size (g : AffinityGroup) : Nat := g.queue.held

def isEmpty (g : AffinityGroup) : Bool := g.queue.isEmpty

def state (g : AffinityGroup) : GroupState := g.stage.state

/-- Nothing queued, nothing running, not published. -/
def isIdle (g : AffinityGroup) : Bool := g.stage = .new && g.isEmpty && g.inFlight = 0

/-- Add a task. A new group is published on a shelf first, and stays new if that fails; the answer
tells whether this task published the group. -/
def insertWith {σ : Type} (g : AffinityGroup) (t : TaskHandle) (shelf : σ)
    (publish : σ → Except SchedError σ) : AffinityGroup × σ × Except SchedError Bool :=
  match g.stage with
  | .new =>
    match publish shelf with
    | .error e => (g, shelf, .error e)
    | .ok shelf' =>
      let published := { g with stage := .staged, stagings := g.stagings + 1 }
      match g.queue.push t with
      | .error e => (published, shelf', .error e)
      | .ok q => ({ published with queue := q }, shelf', .ok true)
  | _ =>
    match g.queue.push t with
    | .error e => (g, shelf, .error e)
    | .ok q => ({ g with queue := q }, shelf, .ok false)

/-- Add a task to a group that stands alone, where publishing cannot fail. -/
def insert (g : AffinityGroup) (t : TaskHandle) : AffinityGroup × Except SchedError Bool :=
  let (g', _, r) := g.insertWith t () .ok
  (g', r)

/-- Make a worker the drainer of a published group. -/
def adopt (g : AffinityGroup) (w : Location) : Except SchedError AffinityGroup :=
  match g.stage with
  | .staged => .ok { g with stage := .active w }
  | s => .error (.violation (.adopted g.key w s.state))

/-- The newest task; a drainer that finds none lets go of the group. -/
def drain (g : AffinityGroup) (w : Location) : AffinityGroup × Option TaskHandle :=
  match g.queue.pop? with
  | some (t, q) => ({ g with queue := q }, some t)
  | none => (if g.stage = .active w then { g with stage := .new } else g, none)

/-- The oldest task, for a worker that does not drain the group. -/
def steal (g : AffinityGroup) : AffinityGroup × Option TaskHandle :=
  match g.queue.steal? with
  | some (t, q) => ({ g with queue := q }, some t)
  | none => (g, none)

/-- Removal from a group that stands alone: at the owner's end the worker adopts it if it waits. -/
def remove (g : AffinityGroup) (e : End) (w : Location) : AffinityGroup × Option TaskHandle :=
  match e with
  | .head => g.steal
  | .tail => (if g.stage = .staged then { g with stage := .active w } else g).drain w

/-- Note that a task of the group is taken. -/
def started (g : AffinityGroup) : AffinityGroup := { g with inFlight := g.inFlight + 1 }

/-- Note that a task of the group is done; the count stops at 0. -/
def done (g : AffinityGroup) : AffinityGroup := { g with inFlight := g.inFlight - 1 }

/-- What the group says about how much it holds. -/
def count (g : AffinityGroup) : CountScope → Count
  | .any => .ofAny !g.isEmpty
  | .staging => .empty
  | _ => .exact g.size

/-- The group's key, state and sizes, for a person to read. -/
def shown (g : AffinityGroup) : String :=
  Text.shownRecord "AffinityGroup"
    [("key", Text.shownPart "AffinityKey" (Text.shownNat g.key.id.toNat)), ("state", g.state.text),
      ("len", Text.shownNat g.size), ("in_flight", Text.shownNat g.inFlight)]

theorem isEmpty_iff (g : AffinityGroup) : g.isEmpty = true ↔ g.tasks = [] := g.queue.isEmpty_iff

theorem isIdle_iff (g : AffinityGroup) :
    g.isIdle = true ↔ g.stage = .new ∧ g.tasks = [] ∧ g.inFlight = 0 := by
  simp [isIdle, isEmpty_iff, and_assoc]

/-- Only a waiting group can be adopted, and adoption changes nothing but the stage. -/
theorem adopt_eq_ok_iff (g g' : AffinityGroup) (w : Location) :
    g.adopt w = .ok g' ↔ g.stage = .staged ∧ g' = { g with stage := .active w } := by
  rw [adopt]
  cases hs : g.stage <;> simp [eq_comm]

/-- A drain takes the owner's end of the queue, or finds it empty. -/
theorem drain_facts (g : AffinityGroup) (w : Location) :
    (∃ t q, g.queue.pop? = some (t, q) ∧ g.drain w = ({ g with queue := q }, some t)) ∨
      (g.tasks = [] ∧ (g.drain w).2 = none) := by
  rw [drain]
  split
  next t q h => exact .inl ⟨t, q, h, rfl⟩
  next h => exact .inr ⟨(g.queue.pop?_eq_none_iff).1 h, rfl⟩

end AffinityGroup

end WorkStealing

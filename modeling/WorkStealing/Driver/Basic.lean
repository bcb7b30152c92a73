import WorkStealing.Metrics
import WorkStealing.Parking
import WorkStealing.Pool.Count
import WorkStealing.Pool.Give
import WorkStealing.Pool.Take

/-!
# Drivers

The scheduler of one node as its callers see it: a pool, one context per worker and further ones for
service threads, and the books. A call returns the driver after it also when it fails.
-/

namespace WorkStealing

/-- The scheduler of one node. -/
structure Driver where
  config : SchedulerConfig
  pool : Pool
  /-- Contexts by number; there are none while the driver's memory is down. -/
  contexts : List Context := []
  /-- Whether tasks may be given. -/
  accepting : Bool := false
  counters : Counters := {}
  resolver : Option Resolver := none
  /-- Who is told of idle workers and of new work. -/
  doorkeeper : Option Doorkeeper := none
deriving Inhabited

namespace Driver

/-- A driver with valid sizes, on a machine that runs `auto` workers at once. -/
def new (c : SchedulerConfig) (auto : Nat) : Except SchedError Driver :=
  match c.validate auto with
  | .ok () => .ok { config := c, pool := .new c auto }
  | .error e => .error e

def workerCount (d : Driver) : Nat := d.pool.workerCount

/-- Tasks given and not yet reported done. -/
def outstanding (d : Driver) : Nat := d.counters.outstanding

def metrics (d : Driver) : Metrics :=
  { workers := d.workerCount
    counters := d.counters
    repels := d.pool.repels
    stagedGroups := d.pool.staging.size
    affinityGroups := d.pool.groupCount
    contexts := d.contexts.map Context.stats }

def context? (d : Driver) (c : ContextId) : Option Context := d.contexts[c.index]?

def setContext (d : Driver) (c : ContextId) (ctx : Context) : Driver :=
  { d with contexts := d.contexts.set c.index ctx }

/-- A context and the worker that it is bound to. -/
def party (d : Driver) (c : ContextId) : Except SchedError (Context × Location) :=
  match d.context? c with
  | none => .error (.unknownContext c)
  | some ctx => ctx.worker.map fun w => (ctx, w)

/-- Pass a notice on, if anybody listens. -/
def tell (d : Driver) (n : Parking.Notice) : Driver :=
  { d with doorkeeper := d.doorkeeper.map fun k => k.tell n }

/-- Put a task into the pool for a context. -/
def place (d : Driver) (c : ContextId) (t : TaskHandle) (hint : Hint) :
    Driver × Except SchedError Placement :=
  match d.party c with
  | .error e => (d, .error e)
  | .ok (ctx, source) =>
    let giver : Giver := if ctx.id.index < d.workerCount then .owner source else .service source
    match d.pool.give giver t hint with
    | (pool, .ok placement) =>
      ({ d with pool := pool }.setContext c ctx.recordGiven, .ok placement)
    | (pool, .error e) => ({ d with pool := pool }, .error e)

/-- The worker whose queues a placement is in. -/
def readyAt : Placement → Option Location
  | .worker w _ => some w
  | .group _ _ => none

/-- Make a task runnable. -/
def give (d : Driver) (c : ContextId) (t : TaskHandle) (hint : Hint) :
    Driver × Except SchedError Unit :=
  if t.isNone then (d, .error (.violation (.emptyHandle c)))
  else if !d.accepting then (d, .error (.notRunning "give"))
  else
    match { d with counters := d.counters.entered }.place c t hint with
    | (d', .error e) => ({ d' with counters := d'.counters.left }, .error e)
    | (d', .ok placement) =>
      ({ d' with counters.gives := d'.counters.gives + 1 }.tell (.ready (readyAt placement)), .ok ())

/-- Make a task runnable where its state, as known to the resolver, says. -/
def giveResolved (d : Driver) (c : ContextId) (t : TaskHandle) : Driver × Except SchedError Unit :=
  match d.resolver with
  | none => (d, .error (.config .noResolver))
  | some r => d.give c t (r.hintFor t)

/-- Take a context's next task; the answer `none` means that nothing was found anywhere. -/
def take (d : Driver) (c : ContextId) : Driver × Except SchedError (Option TaskHandle) :=
  match d.party c with
  | .error e => (d, .error e)
  | .ok (ctx, w) =>
    match d.pool.take w ctx.cursor with
    | (pool, cursor, some taken) =>
      ({ d with pool := pool, counters := d.counters.recordTake taken.source }.setContext c
          ({ ctx with cursor := cursor }.track taken),
        .ok (some taken.task))
    | (pool, cursor, none) =>
      (({ d with pool := pool, counters.emptyTakes := d.counters.emptyTakes + 1 }.setContext c
          { ctx with cursor := cursor }.recordEmpty).tell (.idle w),
        .ok none)

/-- Take a number of tasks at most, up to the first take that finds nothing. -/
def takeBatch (c : ContextId) : Nat → Driver → Driver × Except SchedError (List TaskHandle)
  | 0, d => (d, .ok [])
  | max + 1, d =>
    match d.take c with
    | (d', .error e) => (d', .error e)
    | (d', .ok none) => (d', .ok [])
    | (d', .ok (some t)) =>
      match takeBatch c max d' with
      | (d'', .ok ts) => (d'', .ok (t :: ts))
      | (d'', .error e) => (d'', .error e)

/-- Report a taken task as finished. -/
def done (d : Driver) (c : ContextId) (t : TaskHandle) : Driver × Except SchedError Unit :=
  match d.context? c with
  | none => (d, .error (.unknownContext c))
  | some ctx =>
    match ctx.release t with
    | .error e => (d, .error e)
    | .ok (source, ctx') =>
      let pool :=
        match source.group? with
        | some i => d.pool.groupTaskDone i
        | none => d.pool
      let left := d.counters.left
      ({ d with pool := pool, counters := { left with done := left.done + 1 } }.setContext c ctx',
        .ok ())

/-- Take tasks and report each as finished, so many at most and up to the first take that finds
nothing. -/
def workOff (c : ContextId) : Nat → Driver → Driver × Except SchedError (List TaskHandle)
  | 0, d => (d, .ok [])
  | most + 1, d =>
    match d.take c with
    | (d', .error e) => (d', .error e)
    | (d', .ok none) => (d', .ok [])
    | (d', .ok (some t)) =>
      match d'.done c t with
      | (d'', .error e) => (d'', .error e)
      | (d'', .ok ()) =>
        match workOff c most d'' with
        | (d3, .ok ts) => (d3, .ok (t :: ts))
        | (d3, .error e) => (d3, .error e)

/-- Take and finish tasks until a take finds nothing. -/
def drain (d : Driver) (c : ContextId) : Driver × Except SchedError (List TaskHandle) :=
  d.workOff c (d.pool.tasks.length + 1)

/-- Bind a context to a worker. -/
def registerContext (d : Driver) (c : ContextId) (location : Location) :
    Driver × Except SchedError Unit :=
  if d.workerCount ≤ location.index then
    (d, .error (.violation (.registeredOutside c location d.workerCount)))
  else
    match d.context? c with
    | none => (d, .error (.unknownContext c))
    | some ctx =>
      match ctx.bind location d.workerCount with
      | .ok ctx' => (d.setContext c ctx', .ok ())
      | .error e => (d, .error e)

/-- Add a context for a service thread at a worker's location. -/
def openContext (d : Driver) (location : Location) : Driver × Except SchedError ContextId :=
  if d.workerCount ≤ location.index then
    (d, .error (.violation (.openedOutside location d.workerCount)))
  else if d.contexts.isEmpty then (d, .error (.notRunning "open_context"))
  else
    let id := ContextId.ofIndex d.contexts.length
    let ctx : Context :=
      { id := id, location := some location, cursor := .forWorker location.index d.workerCount }
    ({ d with contexts := d.contexts ++ [ctx] }, .ok id)

def createGroup (d : Driver) (key : AffinityKey) : Driver :=
  { d with pool := (d.pool.createGroup key).1 }

def retireGroup (d : Driver) (key : AffinityKey) : Driver × Except SchedError Unit :=
  let (pool, r) := d.pool.retireGroup key
  ({ d with pool := pool }, r)

def count (d : Driver) (scope : CountScope) : Count := d.pool.count scope

/-- The driver's state and sizes, for a person to read. -/
def shown (d : Driver) : String :=
  Text.shownRecord "Driver"
    [("root", d.pool.shown), ("contexts", Text.shownNat d.contexts.length),
      ("accepting", Text.shownBool d.accepting), ("outstanding", Text.shownNat d.outstanding)]

end Driver

end WorkStealing

import WorkStealing.SchedError
import WorkStealing.Source

/-!
# Contexts

A context is a party that gives and takes. It is bound to one worker, remembers where its last
search succeeded, and holds every task that it has taken and not yet reported done, each with its
source.
-/

namespace WorkStealing

/-- What a context has done so far. -/
structure ContextStats where
  given : Nat := 0
  taken : Nat := 0
  stolen : Nat := 0
  emptyTakes : Nat := 0
  done : Nat := 0
deriving DecidableEq, Repr, Inhabited

/-- A party that gives and takes. -/
structure Context where
  id : ContextId
  location : Option Location := none
  cursor : StealCursor := {}
  /-- Tasks taken and not done, the latest take first. -/
  inFlight : List Taken := []
  stats : ContextStats := {}
deriving DecidableEq, Repr, Inhabited

namespace Context

def isBound (c : Context) : Bool := c.location.isSome

/-- Bind a context to a worker among `workers`; its first steal goes to the worker after that. -/
def bind (c : Context) (location : Location) (workers : Nat) : Except SchedError Context :=
  match c.location with
  | none =>
    .ok { c with location := some location, cursor := .forWorker location.index workers }
  | some bound =>
    if bound = location then .ok c else .error (.violation (.rebound c.id bound location))

/-- Forget the worker and where the last search succeeded. -/
def unbind (c : Context) : Context := { c with location := none, cursor := {} }

/-- The worker that a context is bound to. -/
def worker (c : Context) : Except SchedError Location :=
  match c.location with
  | some w => .ok w
  | none => .error (.violation (.unbound c.id))

def recordGiven (c : Context) : Context := { c with stats.given := c.stats.given + 1 }

def recordEmpty (c : Context) : Context := { c with stats.emptyTakes := c.stats.emptyTakes + 1 }

/-- Hold a taken task until it is done. A task that is held already is held once more. -/
def track (c : Context) (taken : Taken) : Context :=
  { c with
    inFlight := taken :: c.inFlight
    stats.taken := c.stats.taken + 1
    stats.stolen := if taken.source.isSteal then c.stats.stolen + 1 else c.stats.stolen }

/-- Let go of the latest take of a finished task; the answer is that take's source. -/
def release (c : Context) (t : TaskHandle) : Except SchedError (Source × Context) :=
  match c.inFlight.find? (fun h => h.task = t) with
  | none => .error (.violation (.neverTook c.id t))
  | some held =>
    .ok (held.source,
      { c with
        inFlight := c.inFlight.eraseP fun h => h.task = t
        stats.done := c.stats.done + 1 })

/-- A task can be let go exactly when it is held. -/
theorem release_eq_error_iff (c : Context) (t : TaskHandle) (e : SchedError) :
    c.release t = .error e ↔
      (∀ h ∈ c.inFlight, h.task ≠ t) ∧ e = .violation (.neverTook c.id t) := by
  rw [release]
  cases hf : c.inFlight.find? (fun h => h.task = t) with
  | none => simpa [eq_comm] using fun _ => List.find?_eq_none.1 hf
  | some held =>
    simp only [reduceCtorEq, false_iff, not_and]
    intro hall
    have := List.find?_some hf
    exact absurd (by simpa using this) (hall held (List.mem_of_find?_eq_some hf))

end Context

end WorkStealing

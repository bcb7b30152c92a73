import WorkStealing.Wire.Take

/-!
# Take rounds

Which neighbors a node asks when it runs dry, and how often. Every empty search counts a throttle
down, and the search that brings it to zero starts a round: each neighbor that is idle and accepts
requests is asked once. A failed request lets the next search start a round at once.

Main statements: `exhausted_facts` says what a round selects, `throttle_exhausted` how the throttle
moves, and the `locations_…` lemmas that the neighbors stay the same.
-/

namespace WorkStealing

/-- Whether a neighbor owes an answer. -/
inductive NeighborStatus where
  | idle
  | requested
deriving DecidableEq, Repr, Inhabited

/-- What a node knows of one neighbor. -/
structure Neighbor where
  location : Location
  status : NeighborStatus := .idle
  /-- Whether it may be asked; once false, this stays. -/
  accepting : Bool := true
  requestsSent : Nat := 0
  tasksReceived : Nat := 0
  failures : Nat := 0
deriving DecidableEq, Repr, Inhabited

namespace Neighbor

/-- Whether a round on behalf of a requester asks the neighbor. -/
def isSelectable (n : Neighbor) (requester : Option Location) : Bool :=
  n.status = .idle && n.accepting && requester ≠ some n.location

/-- The neighbor after it has been asked. -/
def asked (n : Neighbor) : Neighbor :=
  { n with status := .requested, requestsSent := n.requestsSent + 1 }

/-- The neighbor after a number of tasks came from it. -/
def received (n : Neighbor) (count : Nat) (shuttingDown : Bool) : Neighbor :=
  { n with
    tasksReceived := n.tasksReceived + count
    accepting := n.accepting && !shuttingDown }

/-- The neighbor after its request failed. -/
def failed (n : Neighbor) (unreachable : Bool) : Neighbor :=
  { n with
    status := .idle
    failures := n.failures + 1
    accepting := n.accepting && !unreachable }

/-- The neighbor without a request. -/
def settled (n : Neighbor) : Neighbor := { n with status := .idle }

@[simp] theorem location_asked (n : Neighbor) : n.asked.location = n.location := rfl

@[simp] theorem location_received (n : Neighbor) (count : Nat) (down : Bool) :
    (n.received count down).location = n.location := rfl

@[simp] theorem location_failed (n : Neighbor) (unreachable : Bool) :
    (n.failed unreachable).location = n.location := rfl

@[simp] theorem location_settled (n : Neighbor) : n.settled.location = n.location := rfl

end Neighbor

/-- The neighbors of a node and the pace at which it asks them. -/
structure Rounds where
  neighbors : List Neighbor
  /-- Where the next round begins. -/
  nextVictim : Nat := 0
  /-- Searches until the next round; the first search starts one. -/
  throttle : Int := 1
  factor : UInt32
deriving DecidableEq, Repr, Inhabited

namespace Rounds

/-- Neighbors that were never asked, each named once. -/
def new (neighbors : List Location) (factor : UInt32) : Rounds :=
  { neighbors := neighbors.eraseDups.map fun l => { location := l }
    factor := factor }

def locations (r : Rounds) : List Location := r.neighbors.map Neighbor.location

def neighbor? (r : Rounds) (l : Location) : Option Neighbor :=
  r.neighbors.find? fun n => n.location = l

/-- Requests without an answer yet. -/
def pending (r : Rounds) : Nat := r.neighbors.countP fun n => n.status = .requested

/-- What the throttle starts from after a round. -/
def pace (r : Rounds) : Int := r.factor.toNat * ((r.neighbors.length : Int) - 1)

/-- Change what is known of one neighbor. -/
def update (r : Rounds) (l : Location) (f : Neighbor → Neighbor) : Rounds :=
  { r with neighbors := r.neighbors.map fun n => if n.location = l then f n else n }

/-- The neighbors in the order of the next round. -/
def inTurn (r : Rounds) : List Neighbor := r.neighbors.rotateLeft r.nextVictim

/-- The neighbors that a round on behalf of a requester asks, in order. -/
def selected (r : Rounds) (requester : Option Location) : List Location :=
  (r.inTurn.filter fun n => n.isSelectable requester).map Neighbor.location

/-- Ask the neighbors that a round selects, whatever the throttle says. Without neighbors only the
throttle starts anew. -/
def round (r : Rounds) (requester : Option Location) : Rounds :=
  { r with
    neighbors := r.neighbors.map fun n => if n.isSelectable requester then n.asked else n
    nextVictim :=
      if r.neighbors.isEmpty then r.nextVictim else (r.nextVictim + 1) % r.neighbors.length
    throttle := r.pace }

/-- A search found nothing. The answer lists the neighbors to ask; a requester on whose behalf the
search was made is not asked itself. -/
def exhausted (r : Rounds) (requester : Option Location) : Rounds × List Location :=
  if 0 < r.throttle - 1 then ({ r with throttle := r.throttle - 1 }, [])
  else (r.round requester, r.selected requester)

/-- So many searches in a row found nothing; the answer lists the neighbors to ask for each. -/
def exhaustedTimes (r : Rounds) (requester : Option Location) : Nat → Rounds × List (List Location)
  | 0 => (r, [])
  | times + 1 =>
    let (r', asked) := r.exhausted requester
    let (r'', rest) := r'.exhaustedTimes requester times
    (r'', asked :: rest)

/-- The tasks of an answer. -/
def kept (response : TakeResponse) : List TaskHandle :=
  response.tasks.filter fun t => !t.isNone

/-- A neighbor answered its request; the answer lists the tasks that came, also from a stranger. -/
def answered (r : Rounds) (l : Location) (response : TakeResponse) : Rounds × List TaskHandle :=
  let tasks := kept response
  (r.update l fun n => n.settled.received tasks.length response.shuttingDown, tasks)

/-- An answer came after its request had failed. A request made since then stays open. -/
def answeredLate (r : Rounds) (l : Location) (response : TakeResponse) : Rounds × List TaskHandle :=
  let tasks := kept response
  (r.update l fun n => n.received tasks.length response.shuttingDown, tasks)

/-- A request failed; the next search starts a round. -/
def failed (r : Rounds) (l : Location) (unreachable : Bool) : Rounds :=
  { r.update l (fun n => n.failed unreachable) with throttle := 1 }

@[simp] theorem locations_update (r : Rounds) (l : Location) (f : Neighbor → Neighbor)
    (h : ∀ n, (f n).location = n.location) : (r.update l f).locations = r.locations := by
  simp only [locations, update, List.map_map]
  exact List.map_congr_left fun n _ => by
    simp only [Function.comp]
    split
    · exact h n
    · rfl

@[simp] theorem locations_round (r : Rounds) (requester : Option Location) :
    (r.round requester).locations = r.locations := by
  simp only [locations, round, List.map_map]
  exact List.map_congr_left fun n _ => by
    simp only [Function.comp]
    split <;> rfl

@[simp] theorem locations_exhausted (r : Rounds) (requester : Option Location) :
    (r.exhausted requester).1.locations = r.locations := by
  rw [exhausted]
  split
  · rfl
  · exact locations_round r requester

@[simp] theorem locations_answered (r : Rounds) (l : Location) (response : TakeResponse) :
    (r.answered l response).1.locations = r.locations :=
  locations_update r l _ fun _ => rfl

@[simp] theorem locations_answeredLate (r : Rounds) (l : Location) (response : TakeResponse) :
    (r.answeredLate l response).1.locations = r.locations :=
  locations_update r l _ fun _ => rfl

@[simp] theorem locations_failed (r : Rounds) (l : Location) (unreachable : Bool) :
    (r.failed l unreachable).locations = r.locations :=
  locations_update r l _ fun _ => rfl

/-- A search either counts the throttle down by one or starts it anew. -/
theorem throttle_exhausted (r : Rounds) (requester : Option Location) :
    (r.exhausted requester).1.throttle = if 0 < r.throttle - 1 then r.throttle - 1 else r.pace := by
  rw [exhausted]
  split <;> rfl

/-- A search is throttled and asks nobody, or it starts a round. -/
theorem exhausted_facts (r : Rounds) (requester : Option Location) :
    (1 < r.throttle ∧ r.exhausted requester = ({ r with throttle := r.throttle - 1 }, [])) ∨
      (r.throttle ≤ 1 ∧ r.exhausted requester = (r.round requester, r.selected requester)) := by
  rw [exhausted]
  split
  · exact .inl ⟨by omega, rfl⟩
  · exact .inr ⟨by omega, rfl⟩

end Rounds

end WorkStealing

import WorkStealing.Ident

/-!
# Parking

Workers that found nothing may sleep. A parking lot keeps for each worker whether it found nothing
lately and whether a wake waits for it; a wake that comes before its worker goes to sleep is kept.
-/

namespace WorkStealing

/-- One worker's place to sleep. -/
structure Parker where
  /-- A wake waits for the worker. -/
  notified : Bool := false
  /-- The worker found nothing since it last went to sleep. -/
  idle : Bool := false
deriving DecidableEq, Repr, Inhabited

/-- The places of all workers. -/
structure Parking where
  parkers : List Parker
deriving DecidableEq, Repr, Inhabited

namespace Parking

def new (workers : Nat) : Parking := { parkers := List.replicate workers {} }

def parker? (p : Parking) (w : Location) : Option Parker := p.parkers[w.index]?

/-- Change one place; a worker that does not exist has none. -/
def modifyAt (p : Parking) (i : Nat) (f : Parker → Parker) : Parking :=
  { parkers := p.parkers.modify i f }

/-- Let a wake wait for the worker at a position. -/
def wake (p : Parking) (i : Nat) : Parking := p.modifyAt i fun k => { k with notified := true }

def unpark (p : Parking) (w : Location) : Parking := p.wake w.index

def unparkAll (p : Parking) : Parking :=
  { parkers := p.parkers.map fun k => { k with notified := true } }

/-- Go to sleep for no time at all: the answer tells whether a wake waited, and uses it up. -/
def park (p : Parking) (w : Location) : Parking × Bool :=
  match p.parker? w with
  | some k => (p.modifyAt w.index fun _ => {}, k.notified)
  | none => (p, false)

def isIdle (p : Parking) (w : Location) : Bool := ((p.parker? w).map Parker.idle).getD false

def idleCount (p : Parking) : Nat := (p.parkers.filter Parker.idle).length

/-- Note that a worker found nothing. -/
def markIdle (p : Parking) (w : Location) : Parking :=
  p.modifyAt w.index fun k => { k with idle := true }

/-- The first position of an idle worker that passes a test. -/
def firstIdle? (p : Parking) (test : Nat → Bool) : Option Nat :=
  (List.range p.parkers.length).find? fun i =>
    test i && ((p.parkers[i]?).map Parker.idle).getD false

/-- Note that there is work. Work in one worker's queues wakes that worker, and an idle one besides
if that worker is busy; other work wakes an idle worker, or the first one. -/
def ready (p : Parking) (worker : Option Location) : Parking :=
  match worker.bind fun w => (p.parker? w).map fun k => (w, k) with
  | some (w, k) =>
    let woken := p.wake w.index
    if k.idle then woken
    else
      match p.firstIdle? (· ≠ w.index) with
      | some i => woken.wake i
      | none => woken
  | none => p.wake ((p.firstIdle? fun _ => true).getD 0)

/-- What a parking lot is told. -/
inductive Notice where
  /-- A worker found nothing. -/
  | idle (worker : Location)
  /-- There is work, in one worker's queues or anywhere. -/
  | ready (worker : Option Location)
deriving DecidableEq, Repr, Inhabited

def hear (p : Parking) : Notice → Parking
  | .idle w => p.markIdle w
  | .ready w => p.ready w

@[simp] theorem length_modifyAt (p : Parking) (i : Nat) (f : Parker → Parker) :
    (p.modifyAt i f).parkers.length = p.parkers.length := by
  simp [modifyAt]

theorem getElem?_wake (p : Parking) (i j : Nat) :
    (p.wake i).parkers[j]? =
      if i = j then (p.parkers[j]?).map fun k => { k with notified := true }
      else p.parkers[j]? := by
  simp only [wake, modifyAt, List.getElem?_modify]
  split <;> simp

end Parking

/-- A parking lot that keeps the notices it was told, the latest first. -/
structure Doorkeeper where
  parking : Parking
  heard : List Parking.Notice := []
deriving DecidableEq, Repr, Inhabited

namespace Doorkeeper

def tell (k : Doorkeeper) (n : Parking.Notice) : Doorkeeper :=
  { parking := k.parking.hear n, heard := n :: k.heard }

/-- Forget the notices. -/
def clear (k : Doorkeeper) : Doorkeeper := { k with heard := [] }

end Doorkeeper

end WorkStealing

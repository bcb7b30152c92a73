import WorkStealing.Pool.Count
import WorkStealing.Pool.Give
import WorkStealing.Pool.Take

/-!
# Containers

One interface to the four kinds of store that can stand alone: a deque, urgency levels, an affinity
group and a pool.
-/

namespace WorkStealing

/-- A store of tasks. -/
inductive Container where
  | deque (d : WorkDeque)
  | levels (l : Levels)
  | group (g : AffinityGroup)
  | pool (p : Pool)
deriving Inhabited

/-- A removal: for whom, at which end, and where the last one succeeded. -/
structure Selector where
  source : Location
  side : End
  cursor : StealCursor := {}
deriving DecidableEq, Repr, Inhabited

namespace Selector

def owner (source : Location) : Selector := { source := source, side := .tail }

def thief (source : Location) : Selector := { source := source, side := .head }

end Selector

namespace Container

/-- Add a task for a location. -/
def insert (c : Container) (t : TaskHandle) (hint : Hint) (source : Location) :
    Container × Except SchedError Unit :=
  match c with
  | .deque d =>
    match d.push t with
    | .ok d' => (.deque d', .ok ())
    | .error e => (c, .error e)
  | .levels l =>
    match l.insert t ((hint.priority.map UInt32.toNat).getD l.defaultLevel) with
    | .ok (_, l') => (.levels l', .ok ())
    | .error e => (c, .error e)
  | .group g =>
    let (g', r) := g.insert t
    (.group g', r.map fun _ => ())
  | .pool p =>
    let (p', r) := p.give (.owner source) t hint
    (.pool p', r.map fun _ => ())

/-- Remove a task as a selector asks; its cursor notes where. -/
def remove (c : Container) (sel : Selector) : Container × Selector × Option TaskHandle :=
  match c with
  | .deque d =>
    match d.takeAt? sel.side with
    | some (t, d') => (.deque d', { sel with cursor.level := 0 }, some t)
    | none => (c, sel, none)
  | .levels l =>
    match l.remove sel.side with
    | (l', some (t, level)) => (.levels l', { sel with cursor.level := level }, some t)
    | (l', none) => (.levels l', sel, none)
  | .group g =>
    let (g', r) := g.remove sel.side sel.source
    (.group g', sel, r)
  | .pool p =>
    let (p', cursor, r) := p.take sel.source sel.cursor
    (.pool p', { sel with cursor := cursor }, r.map Taken.task)

def count (c : Container) (scope : CountScope) : Count :=
  match c with
  | .deque d => d.count scope
  | .levels l => l.count scope
  | .group g => g.count scope
  | .pool p => p.count scope

def isEmpty (c : Container) : Bool := (c.count .any).isEmpty

/-- The name of a container's kind. -/
def kind : Container → String
  | .deque _ => "deque"
  | .levels _ => "priority"
  | .group _ => "affinity"
  | .pool _ => "root"

/-- The container's sizes, for a person to read. -/
def shown : Container → String
  | .deque d => d.shown
  | .levels l => l.shown
  | .group g => g.shown
  | .pool p => p.shown

end Container

end WorkStealing

import WorkStealing.Pool.Basic

/-!
# Taking

Where a worker finds its next task: in its own queues; in the group it drains; in a group that it
adopts from staging; or with another worker, tried in cyclic order from the one remembered by its
cursor. Another worker with tasks of its own repels a number of attempts first.
-/

namespace WorkStealing.Pool

/-- The newest task of the group that a worker drains; a worker that finds none is let go. -/
def takeActive (p : Pool) (w : Location) : Pool × Option Taken :=
  match p.seat? w with
  | none => (p, none)
  | some s =>
    match s.active with
    | none => (p, none)
    | some i =>
      match p.groups.get? i with
      | none => (p.setSeat w.index { s with active := none }, none)
      | some g =>
        match g.drain w with
        | (g', some t) => (p.setGroup i g'.started, some { task := t, source := .active i })
        | (g', none) => ((p.setGroup i g').setSeat w.index { s with active := none }, none)

/-- Make a worker the drainer of the group at an index and take the group's newest task. Nothing is
taken from a group that is gone, does not wait to be adopted, or is empty. -/
def adoptAt (p : Pool) (w : Location) (i : ArenaIndex) : Pool × Option Taken :=
  match p.groups.get? i, p.seat? w with
  | some g, some s =>
    match g.adopt w with
    | .error _ => (p, none)
    | .ok adopted =>
      match adopted.drain w with
      | (g', some t) =>
        ((p.setGroup i g'.started).setSeat w.index { s with active := some i },
          some { task := t, source := .staged i })
      | (g', none) => ((p.setGroup i g').setSeat w.index { s with active := none }, none)
  | _, _ => (p, none)

/-- Adopt waiting groups, a number of them at most, until one yields a task. -/
def adoptStaged (w : Location) : Nat → Pool → Pool × Option Taken
  | 0, p => (p, none)
  | budget + 1, p =>
    match p.staging.pop? w.index with
    | none => (p, none)
    | some (i, staging) =>
      match adoptAt { p with staging := staging } w i with
      | (p', some taken) => (p', some taken)
      | (p', none) => adoptStaged w budget p'

/-- The oldest task of the group that a victim drains. -/
def stealFromGroup (p : Pool) (v : Nat) (s : Seat) : Pool × Option Taken :=
  match s.active with
  | none => (p, none)
  | some i =>
    match p.groups.get? i with
    | none => (p, none)
    | some g =>
      match g.steal with
      | (g', some t) =>
        (p.setGroup i g'.started,
          some { task := t, source := .stolenFromGroup (Location.ofIndex v) i })
      | (_, none) => (p, none)

/-- Try one other worker: its own queues, which repel a number of attempts, then its group. -/
def stealFrom (p : Pool) (v : Nat) : Pool × Option Taken :=
  match p.seats[v]? with
  | none => (p, none)
  | some s =>
    if s.lane.isEmpty then p.stealFromGroup v s
    else if p.maxRepels ≤ s.attempts then
      match s.lane.remove .head with
      | (lane, some (t, level)) =>
        (p.setSeat v { s with lane := lane },
          some { task := t, source := .stolen (Location.ofIndex v) level })
      | (lane, none) => (p.setSeat v { s with lane := lane }).stealFromGroup v { s with lane := lane }
    else
      let s' := { s with attempts := s.attempts + 1 }
      ({ p.setSeat v s' with repels := p.repels + 1 }).stealFromGroup v s'

/-- Try workers in a row until one yields a task; the answer names the worker that did. -/
def stealAlong : List Nat → Pool → Pool × Option (Nat × Taken)
  | [], p => (p, none)
  | v :: rest, p =>
    match p.stealFrom v with
    | (p', some taken) => (p', some (v, taken))
    | (p', none) => stealAlong rest p'

/-- The first worker that a thief at position `w` among `n` tries. -/
def firstVictim (w n : Nat) (cursor : StealCursor) : Nat :=
  match cursor.victim with
  | some v => if v < n ∧ v ≠ w then v else (w + 1) % n
  | none => (w + 1) % n

/-- The next position after `start` in cyclic order that is not `w`. -/
def nextVictim (w n start : Nat) : Nat :=
  let next := (start + 1) % n
  if next = w then (next + 1) % n else next

/-- The level that a task was taken from, if it stood in a worker's queue. -/
def stolenLevel? : Source → Option Nat
  | .stolen _ level => some level
  | _ => none

/-- Try every other worker once. The cursor stays at the worker that yielded a task, and moves on by
one if none did. -/
def stealRound (p : Pool) (w : Nat) (cursor : StealCursor) : Pool × StealCursor × Option Taken :=
  let n := p.workerCount
  if n < 2 then (p, cursor, none)
  else
    let start := firstVictim w n cursor
    match stealAlong ((cyclicFrom start n).filter (· ≠ w)) p with
    | (p', some (v, taken)) =>
      (p', { victim := some v, level := (stolenLevel? taken.source).getD cursor.level }, some taken)
    | (p', none) => (p', { cursor with victim := some (nextVictim w n start) }, none)

/-- Find a worker's next task. -/
def take (p : Pool) (w : Location) (cursor : StealCursor) : Pool × StealCursor × Option Taken :=
  match p.seat? w with
  | none => (p, cursor, none)
  | some s =>
    match s.lane.remove .tail with
    | (lane, some (t, level)) =>
      (p.setSeat w.index { s with lane := lane }, { cursor with level := level },
        some { task := t, source := .own level })
    | (lane, none) =>
      let searched := p.setSeat w.index { s with lane := lane, available := false }
      match searched.takeActive w with
      | (q, some taken) => (q, cursor, some taken)
      | (q, none) =>
        match adoptStaged w q.staging.size q with
        | (q', some taken) => (q', cursor, some taken)
        | (q', none) => q'.stealRound w.index cursor

end WorkStealing.Pool

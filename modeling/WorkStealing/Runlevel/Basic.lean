import WorkStealing.SchedError

/-!
# Runlevels

A node comes up level by level and goes down in reverse. Each level has one or more phases, and each
participant is told once of every phase that comes up and once of every phase that goes down again.
The manager marks what each participant has up, so that nothing is told twice.

Participants act on a world `σ` of their own; a switch returns the world also when it fails.
-/

namespace WorkStealing

/-- The levels, in the order in which they come up. -/
inductive RunLevel where
  | configParse
  | networkOk
  | pdOk
  | memoryOk
  | guidOk
  | computeOk
  | userOk
deriving DecidableEq, Repr, Inhabited

namespace RunLevel

def all : List RunLevel :=
  [.configParse, .networkOk, .pdOk, .memoryOk, .guidOk, .computeOk, .userOk]

/-- Position of a level in the order. -/
def rank : RunLevel → Nat
  | .configParse => 0
  | .networkOk => 1
  | .pdOk => 2
  | .memoryOk => 3
  | .guidOk => 4
  | .computeOk => 5
  | .userOk => 6

def text : RunLevel → String
  | .configParse => "config-parse"
  | .networkOk => "network-ok"
  | .pdOk => "pd-ok"
  | .memoryOk => "memory-ok"
  | .guidOk => "guid-ok"
  | .computeOk => "compute-ok"
  | .userOk => "user-ok"

/-- The level just below, if any. -/
def below? (l : RunLevel) : Option RunLevel := (all.filter fun m => m.rank < l.rank).getLast?

theorem mem_all (l : RunLevel) : l ∈ all := by cases l <;> decide

theorem rank_injective {a b : RunLevel} (h : a.rank = b.rank) : a = b := by
  cases a <;> cases b <;> first | rfl | exact absurd h (by decide)

end RunLevel

/-- The direction of a switch. -/
inductive Direction where
  | up
  | down
deriving DecidableEq, Repr, Inhabited

/-- Something that takes part in bring-up and tear-down. -/
structure Participant (σ : Type) where
  name : String
  switch : RunLevel → Nat → Direction → σ → σ × Except SchedError Unit

/-- One phase of one level at one participant, named by its position. -/
structure PhaseMark where
  participant : Nat
  level : RunLevel
  phase : Nat
deriving DecidableEq, Repr, Inhabited

/-- The manager of the runlevels. -/
structure Runlevels (σ : Type) where
  participants : List (Participant σ) := []
  /-- Levels with a number of phases of their own, the latest first. -/
  phaseCounts : List (RunLevel × Nat) := []
  /-- The phases that are up. -/
  up : List PhaseMark := []
  /-- The highest level that is wholly up. -/
  current : Option RunLevel := none

instance (σ : Type) : Inhabited (Runlevels σ) := ⟨{}⟩

/-- One step of a bring-up or tear-down. -/
inductive RunlevelMove where
  | switch (level : RunLevel) (phase : Nat) (direction : Direction)
  /-- A level is complete: from now on this level is the current one. -/
  | reach (level : Option RunLevel)
deriving DecidableEq, Repr, Inhabited

namespace Runlevels

variable {σ : Type}

def register (m : Runlevels σ) (p : Participant σ) : Runlevels σ :=
  { m with participants := m.participants ++ [p] }

/-- Split a level into a number of phases, at least one. -/
def withPhases (m : Runlevels σ) (level : RunLevel) (count : Nat) : Runlevels σ :=
  { m with phaseCounts := (level, max count 1) :: m.phaseCounts }

def phases (m : Runlevels σ) (level : RunLevel) : Nat := (m.phaseCounts.lookup level).getD 1

/-- Whether a switch has something to tell: what is up cannot come up, what is not cannot go down. -/
def isDue (m : Runlevels σ) (mark : PhaseMark) : Direction → Bool
  | .up => !m.up.contains mark
  | .down => m.up.contains mark

/-- Note that a phase came up or went down. -/
def note (m : Runlevels σ) (mark : PhaseMark) : Direction → Runlevels σ
  | .up => { m with up := mark :: m.up }
  | .down => { m with up := m.up.filter (· ≠ mark) }

/-- Tell participants of one switch, in order, and stop at the first that refuses. -/
def tell (level : RunLevel) (phase : Nat) (direction : Direction) :
    List (Participant σ) → Nat → Runlevels σ → σ → Runlevels σ × σ × Except SchedError Unit
  | [], _, m, w => (m, w, .ok ())
  | p :: rest, position, m, w =>
    let mark : PhaseMark := { participant := position, level := level, phase := phase }
    if m.isDue mark direction then
      match p.switch level phase direction w with
      | (w', .ok ()) => tell level phase direction rest (position + 1) (m.note mark direction) w'
      | (w', .error e) => (m, w', .error e)
    else tell level phase direction rest (position + 1) m w

/-- Switch one phase at every participant that it is news to. -/
def switch (m : Runlevels σ) (level : RunLevel) (phase : Nat) (direction : Direction) (w : σ) :
    Runlevels σ × σ × Except SchedError Unit :=
  tell level phase direction m.participants 0 m w

/-- Make a row of moves, up to the first that fails. -/
def walk : List RunlevelMove → Runlevels σ → σ → Runlevels σ × σ × Except SchedError Unit
  | [], m, w => (m, w, .ok ())
  | .reach level :: rest, m, w => walk rest { m with current := level } w
  | .switch level phase direction :: rest, m, w =>
    match m.switch level phase direction w with
    | (m', w', .ok ()) => walk rest m' w'
    | (m', w', .error e) => (m', w', .error e)

/-- The moves that bring up every level as far as a target. -/
def bringUpMoves (m : Runlevels σ) (target : RunLevel) : List RunlevelMove :=
  (RunLevel.all.filter fun l => l.rank ≤ target.rank).flatMap fun l =>
    (List.range (m.phases l)).map (fun phase => .switch l phase .up) ++ [.reach (some l)]

/-- The moves that take every level down, the highest first and its last phase first. -/
def tearDownMoves (m : Runlevels σ) : List RunlevelMove :=
  RunLevel.all.reverse.flatMap fun l =>
    (List.range (m.phases l)).reverse.map (fun phase => .switch l phase .down)
      ++ [.reach l.below?]

def bringUpTo (m : Runlevels σ) (target : RunLevel) (w : σ) :
    Runlevels σ × σ × Except SchedError Unit :=
  walk (m.bringUpMoves target) m w

def bringUp (m : Runlevels σ) (w : σ) : Runlevels σ × σ × Except SchedError Unit :=
  m.bringUpTo .userOk w

def tearDown (m : Runlevels σ) (w : σ) : Runlevels σ × σ × Except SchedError Unit :=
  walk m.tearDownMoves m w

/-- A row of moves is made one part after the other. -/
theorem walk_append (xs ys : List RunlevelMove) (m : Runlevels σ) (w : σ) :
    walk (xs ++ ys) m w =
      match walk xs m w with
      | (m', w', .ok ()) => walk ys m' w'
      | (m', w', .error e) => (m', w', .error e) := by
  induction xs generalizing m w with
  | nil => rfl
  | cons x rest ih =>
    cases x with
    | reach level => simpa [walk] using ih _ _
    | switch level phase direction =>
      simp only [List.cons_append, walk]
      cases h : m.switch level phase direction w with
      | mk m' r =>
        obtain ⟨w', r⟩ := r
        cases r with
        | ok u => simpa using ih m' w'
        | error e => rfl

end Runlevels

end WorkStealing

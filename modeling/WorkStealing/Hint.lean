import WorkStealing.Ident

/-!
# Placement hints

What a giver may say about where its task should go. Every part may be left out; a hint without
parts puts the task into the giver's own queue at the usual level.
-/

namespace WorkStealing

/-- Placement wishes that come with a task. -/
structure Hint where
  /-- Urgency level, 0 first; a level that does not exist counts as the last one. -/
  priority : Option UInt32 := none
  /-- Affinity group that the task belongs to. -/
  affinity : Option AffinityKey := none
  /-- Worker that should get the task. -/
  mapping : Option Location := none
deriving DecidableEq, Repr, Inhabited

namespace Hint

/-- The hint that wishes nothing. -/
def none : Hint := {}

def ofPriority (level : UInt32) : Hint := { priority := some level }

def ofAffinity (key : AffinityKey) : Hint := { affinity := some key }

def ofMapping (location : Location) : Hint := { mapping := some location }

/-- The same hint at another level. -/
def withPriority (h : Hint) (level : UInt32) : Hint := { h with priority := some level }

/-- Whether a hint wishes nothing. -/
def isNone (h : Hint) : Bool := h.priority.isNone && h.affinity.isNone && h.mapping.isNone

theorem isNone_iff (h : Hint) : h.isNone = true ↔ h = none := by
  rcases h with ⟨p, a, m⟩
  cases p <;> cases a <;> cases m <;> simp [isNone, none]

end Hint

/-- The part of a task's own state that bears on scheduling. -/
structure TaskState where
  priority : Option UInt32 := none
  affinity : Option AffinityKey := none
  /-- Location of the task's main dependency. -/
  dominantSlot : Option Location := none
deriving DecidableEq, Repr, Inhabited

/-- The hint that a task's state amounts to: it should run where its main dependency is. -/
def TaskState.hint (s : TaskState) : Hint :=
  { priority := s.priority, affinity := s.affinity, mapping := s.dominantSlot }

/-- A table of task states, read by givers that bring no hint of their own. -/
structure Resolver where
  entries : List (TaskHandle × TaskState) := []
deriving DecidableEq, Repr, Inhabited

namespace Resolver

/-- The state known for a task. -/
def resolve (r : Resolver) (t : TaskHandle) : Option TaskState := r.entries.lookup t

/-- Drop what is known about a task. -/
def forget (r : Resolver) (t : TaskHandle) : Resolver :=
  { entries := r.entries.filter (fun e => e.1 ≠ t) }

/-- Note a task's state in place of any earlier one. -/
def insert (r : Resolver) (t : TaskHandle) (s : TaskState) : Resolver :=
  { entries := (t, s) :: (r.forget t).entries }

def size (r : Resolver) : Nat := r.entries.length

/-- The hint for a task; one that is not in the table wishes nothing. -/
def hintFor (r : Resolver) (t : TaskHandle) : Hint := ((r.resolve t).map TaskState.hint).getD Hint.none

end Resolver

end WorkStealing

import WorkStealing.Runlevel.Basic

/-!
# Rehearsals

Participants that do nothing but keep a journal and refuse the switches they are set to refuse. They
show in which order a manager tells what to whom.
-/

namespace WorkStealing

/-- One switch as a participant saw it. -/
structure Sighting where
  participant : String
  level : RunLevel
  phase : Nat
  direction : Direction
  accepted : Bool
deriving DecidableEq, Repr, Inhabited

/-- What the participants of a rehearsal share. -/
structure Rehearsal where
  /-- Switches that the participant at each position refuses. -/
  refusals : List (List (RunLevel × Nat × Direction)) := []
  /-- What was seen, the latest first. -/
  journal : List Sighting := []
deriving Inhabited

namespace Rehearsal

/-- The participant of a name at a position. -/
def participant (name : String) (position : Nat) : Participant Rehearsal where
  name := name
  switch level phase direction r :=
    let refuses := ((r.refusals[position]?).getD []).contains (level, phase, direction)
    let seen : Sighting :=
      { participant := name, level := level, phase := phase, direction := direction,
        accepted := !refuses }
    ({ r with journal := seen :: r.journal },
      if refuses then
        .error (.violation (.stated
          (name ++ " refuses " ++ level.text ++ "/" ++ Nat.repr phase)))
      else .ok ())

/-- Add a participant that refuses nothing. -/
def join (m : Runlevels Rehearsal) (r : Rehearsal) (name : String) :
    Runlevels Rehearsal × Rehearsal :=
  (m.register (participant name m.participants.length), { r with refusals := r.refusals ++ [[]] })

/-- Set what the participant at a position refuses. -/
def refuse (r : Rehearsal) (position : Nat) (refused : List (RunLevel × Nat × Direction)) : Rehearsal :=
  { r with refusals := r.refusals.set position refused }

end Rehearsal

end WorkStealing

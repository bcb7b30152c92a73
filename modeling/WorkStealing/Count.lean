import WorkStealing.Ident

/-!
# Ends and counts

Which end of a queue a removal takes from, and the answers to the question how much a container
holds.
-/

namespace WorkStealing

/-- The end of a queue that a removal takes from. -/
inductive End where
  /-- The owner's end: newest first. -/
  | tail
  /-- The thief's end: oldest first. -/
  | head
deriving DecidableEq, Repr, Inhabited

/-- What a container says about how much it holds. -/
inductive Count where
  | exact (n : Nat)
  | nonEmpty
  | empty
deriving DecidableEq, Repr, Inhabited

namespace Count

def isEmpty : Count → Bool
  | .exact n => n = 0
  | .nonEmpty => false
  | .empty => true

/-- The number, where the answer fixes one. -/
def value : Count → Option Nat
  | .exact n => some n
  | .nonEmpty => none
  | .empty => some 0

/-- The answer that tells only whether anything is held. -/
def ofAny (busy : Bool) : Count := if busy then .nonEmpty else .empty

end Count

/-- What a count is to cover. -/
inductive CountScope where
  /-- Whether there is anything at all. -/
  | any
  /-- Everything. -/
  | all
  /-- One urgency level. -/
  | level (l : Nat)
  /-- One worker's own queue. -/
  | worker (w : Location)
  /-- Groups that wait to be adopted. -/
  | staging
deriving DecidableEq, Repr, Inhabited

end WorkStealing

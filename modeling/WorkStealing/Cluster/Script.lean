import WorkStealing.Cluster.Node

/-!
# Scripted neighbors

A node whose neighbors answer from a script, one outcome for each request, and at once. It shows what
a node makes of every outcome, and in which order it asks.
-/

namespace WorkStealing

/-- The outcomes of requests to each neighbor, the next first. -/
abbrev Script := List (Location × List (Except ClusterError Message))

/-- The outcome of the next request to a neighbor, and the script after it. A neighbor whose part is
over cannot be reached. -/
def Script.next (neighbor : Location) : Script → Except ClusterError Message × Script
  | [] => (.error (.unreachable neighbor), [])
  | (l, outcomes) :: rest =>
    if l = neighbor then
      match outcomes with
      | [] => (.error (.unreachable neighbor), (l, []) :: rest)
      | outcome :: later => (outcome, (l, later) :: rest)
    else
      let (outcome, rest') := Script.next neighbor rest
      (outcome, (l, outcomes) :: rest')

/-- A node among scripted neighbors. -/
structure ScriptedNode where
  node : Node
  script : Script
  /-- Whether late replies reach the node. -/
  hearsLate : Bool := true
  /-- Neighbors that have yet to be asked. -/
  waiting : List Location := []
  /-- What was sent to whom, in order. -/
  sent : List (Location × Message) := []
deriving Inhabited

namespace ScriptedNode

/-- The requests of a script all bear one time. -/
def timestamp : Timestamp := .epoch

def trigger (s : ScriptedNode) (requester : Option Location) : ScriptedNode × Nat :=
  let (node, asked) := s.node.trigger requester
  ({ s with node := node, waiting := s.waiting ++ asked }, asked.length)

def respond (s : ScriptedNode) (request : Message) : ScriptedNode × Except ClusterError Message :=
  match s.node.respond request timestamp with
  | (node, .ok handout) =>
    ({ s with node := node, waiting := s.waiting ++ handout.asked }, .ok handout.reply)
  | (node, .error e) => ({ s with node := node }, .error e)

/-- Let a late reply come in; the answer tells whether it reached the node. -/
def receiveLate (s : ScriptedNode) (reply : Message) : ScriptedNode × Bool :=
  if s.hearsLate then ({ s with node := s.node.receiveLate reply }, true) else (s, false)

/-- Ask one neighbor and take its outcome in. -/
def exchange (s : ScriptedNode) (neighbor : Location) : ScriptedNode :=
  let request := s.node.request timestamp (.ofNat s.sent.length)
  let (outcome, script) := s.script.next neighbor
  { s with
    node := s.node.conclude neighbor outcome
    script := script
    sent := s.sent ++ [(neighbor, request)] }

/-- Ask every neighbor that waits, in order. -/
def settle (s : ScriptedNode) : ScriptedNode :=
  s.waiting.foldl exchange { s with waiting := [] }

end ScriptedNode

end WorkStealing

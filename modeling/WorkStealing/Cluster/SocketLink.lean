import WorkStealing.Cluster.Node

/-!
# Links over sockets

Two nodes over a pair of sockets, on which messages travel in frames. A request to a node that does
not serve yet stays in its socket: the asker gives up when its time is over, and the reply comes late.
Neighbors without a socket cannot be reached.
-/

namespace WorkStealing

/-- A node that asks and the one neighbor that it has a socket to. -/
structure SocketLink where
  asker : Node
  server : Node
  isServing : Bool := false
  /-- Requests that wait in the server's socket. -/
  unserved : List Message := []
  /-- How many requests have been sent. -/
  serial : Nat := 0
deriving Inhabited

namespace SocketLink

/-- The neighbors that the asker has a socket to. -/
def links (k : SocketLink) : List Location := k.asker.rounds.locations.filter fun l => l = k.server.id

/-- The time that all messages carry. -/
def timestamp : Timestamp := .epoch

/-- A message as it comes out at the other end. -/
def transmit (m : Message) : Except ClusterError Message :=
  Message.ofFrames m.toFrames

/-- What the asker has when its time is over. -/
def timeout (k : SocketLink) : Except ClusterError Message :=
  .error (.timeout (k.asker.timeoutMs * 1000000))

/-- Let the server answer a request, and release what it hands out. Without an answer the asker's
time runs out. -/
def answer (k : SocketLink) (request : Message) : SocketLink × Except ClusterError Message :=
  match k.server.respond request timestamp with
  | (server, .ok handout) => ({ k with server := server }, transmit handout.reply)
  | (server, .error _) => ({ k with server := server }, k.timeout)

/-- Ask one neighbor and wait for the outcome. -/
def exchange (k : SocketLink) (neighbor : Location) : SocketLink :=
  let conclude (k : SocketLink) (outcome : Except ClusterError Message) : SocketLink :=
    { k with asker := k.asker.conclude neighbor outcome }
  if neighbor = k.server.id then
    let sent := { k with serial := k.serial + 1 }
    match transmit (k.asker.request timestamp (.ofNat k.serial)) with
    | .error e => conclude sent (.error e)
    | .ok request =>
      if k.isServing then
        let (k', outcome) := sent.answer request
        conclude k' outcome
      else
        conclude { sent with unserved := k.unserved ++ [request] } k.timeout
  else conclude k (.error (.unreachable neighbor))

/-- Let the asker look for work and wait for all outcomes; the answer counts the requests. -/
def ask (k : SocketLink) : SocketLink × Nat :=
  let (asker, asked) := k.asker.trigger none
  (asked.foldl exchange { k with asker := asker }, asked.length)

/-- Look for work so many times; the answer counts the requests of each time. -/
def askTimes (k : SocketLink) : Nat → SocketLink × List Nat
  | 0 => (k, [])
  | times + 1 =>
    let (k', count) := k.ask
    let (k'', counts) := k'.askTimes times
    (k'', count :: counts)

/-- Answer a request whose asker has given up. -/
def answerLate (k : SocketLink) (request : Message) : SocketLink :=
  match k.answer request with
  | (k', .ok reply) => { k' with asker := k'.asker.receiveLate reply }
  | (k', .error _) => k'

/-- Start to serve, the requests first that wait. -/
def serve (k : SocketLink) : SocketLink :=
  k.unserved.foldl answerLate { k with isServing := true, unserved := [] }

end SocketLink

end WorkStealing

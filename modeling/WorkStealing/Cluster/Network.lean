import WorkStealing.Cluster.Node

/-!
# Networks

Nodes that reach each other through one network on a virtual clock in milliseconds. A message goes
over the network as bytes. An exchange waits until the clock may run, then begins: the target is
looked up and the request sent. It ends when the target's delay has passed, in one event: the target
answers and the asker takes the answer in. An exchange whose delay reaches the asker's timeout fails
when the timeout has passed.

Events come in the order of their times. At one time, the exchanges that end do so in the order in which
they began, and what they set off begins after them. `beginAt` and `endAt` are single events at any
position, `next?` picks the one whose turn it is, and `run` follows `next?`.
-/

namespace WorkStealing

/-- An exchange that has begun. -/
structure Exchange where
  /-- The number of its request. -/
  number : Nat
  asker : Location
  target : Location
  /-- The request as it arrived. -/
  request : Message
  /-- When the exchange ends. -/
  due : Nat
  /-- Whether it ends without an answer, after a time in milliseconds. -/
  timeout : Option Nat
deriving DecidableEq, Repr, Inhabited

/-- Nodes and what is going on between them. -/
structure Network where
  nodes : List Node := []
  /-- Nodes that no longer answer for good. -/
  dropped : List Location := []
  /-- Nodes that cannot be reached now. -/
  down : List Location := []
  delays : List (Location × Nat) := []
  clock : Nat := 0
  /-- Exchanges that have not begun, by asker and target. -/
  waiting : List (Location × Location) := []
  /-- Exchanges that have begun, in order. -/
  underway : List Exchange := []
  /-- How many requests have been sent. -/
  serial : Nat := 0
  /-- Requests with a smaller number are answered, once their time has come, before anything else
  begins. -/
  horizon : Nat := 0
deriving Inhabited

namespace Network

def node? (w : Network) (id : Location) : Option Node := w.nodes.find? fun n => n.id = id

/-- Put a node in the place of the one that has its name. -/
def setNode (w : Network) (n : Node) : Network :=
  { w with nodes := w.nodes.map fun m => if m.id = n.id then n else m }

/-- Let a node join. -/
def add (w : Network) (n : Node) : Network := { w with nodes := w.nodes ++ [n] }

def setReachable (w : Network) (id : Location) (reachable : Bool) : Network :=
  { w with down := if reachable then w.down.filter (· ≠ id) else id :: w.down }

/-- Hold every later answer of a node back for some milliseconds. -/
def setDelay (w : Network) (id : Location) (ms : Nat) : Network :=
  { w with delays := (id, ms) :: w.delays }

/-- Let a node answer no more. What it has begun to answer it still answers. -/
def drop (w : Network) (id : Location) : Network := { w with dropped := id :: w.dropped }

def isReachable (w : Network) (id : Location) : Bool :=
  !w.down.contains id && !w.dropped.contains id && (w.node? id).isSome

/-- How long the answers of a node are held back, if at all. -/
def delay? (w : Network) (id : Location) : Option Nat := w.delays.lookup id

/-- The time that all messages carry, as a virtual clock has no calendar. -/
def timestamp : Timestamp := .epoch

/-- Queue exchanges of one asker. -/
def ask (w : Network) (asker : Location) (targets : List Location) : Network :=
  { w with waiting := w.waiting ++ targets.map fun t => (asker, t) }

/-- Let a node look for work; the answer counts the exchanges. -/
def trigger (w : Network) (id : Location) (requester : Option Location) : Network × Nat :=
  match w.node? id with
  | none => (w, 0)
  | some n =>
    let (n', asked) := n.trigger requester
    ((w.setNode n').ask id asked, asked.length)

/-- Let a node answer a request that came from outside the network. -/
def respond (w : Network) (id : Location) (request : Message) :
    Network × Except ClusterError Message :=
  match w.node? id with
  | none => (w, .error (.unreachable id))
  | some n =>
    match n.respond request timestamp with
    | (n', .ok handout) => ((w.setNode n').ask id handout.asked, .ok handout.reply)
    | (n', .error e) => (w.setNode n', .error e)

/-- Let a node serve requests that came from outside the network. -/
def serve (w : Network) (id : Location) (arrivals : List Arrival) : Network × List Sending :=
  match w.node? id with
  | none => (w, [])
  | some n =>
    let (n', asked, sendings) := n.serve timestamp arrivals
    ((w.setNode n').ask id asked, sendings)

/-- A message as it comes out at the other end. -/
def transmit (m : Message) : Except ClusterError Message :=
  match Message.ofBytes? m.toBytes with
  | some m' => .ok m'
  | none => .error .deserialization

/-- Let a node end an exchange. -/
def conclude (w : Network) (asker target : Location) (outcome : Except ClusterError Message) :
    Network :=
  match w.node? asker with
  | none => w
  | some n => w.setNode (n.conclude target outcome)

/-- The timeout that a delay reaches, if it does. -/
def timeout? (timeoutMs : Nat) : Option Nat → Option Nat
  | some delay => if timeoutMs ≤ delay then some timeoutMs else none
  | none => none

/-- Send a request to its target, or find that this cannot be done. -/
def dispatch (w : Network) (asker : Node) (target : Location) : Except ClusterError Exchange :=
  if w.isReachable target then
    match transmit (asker.request timestamp (.ofNat w.serial)) with
    | .error e => .error e
    | .ok request =>
      let delay := w.delay? target
      let timeout := timeout? asker.timeoutMs delay
      .ok {
        number := w.serial
        asker := asker.id
        target := target
        request := request
        due := w.clock + timeout.getD (delay.getD 0)
        timeout := timeout }
  else .error (.unreachable target)

/-- Begin an exchange. -/
def start (w : Network) (asker target : Location) : Network :=
  match w.node? asker with
  | none => w
  | some n =>
    match w.dispatch n target with
    | .error e => w.conclude asker target (.error e)
    | .ok x => { w with underway := w.underway ++ [x], serial := w.serial + 1 }

/-- Begin the exchange that waits at a position. -/
def beginAt (w : Network) (i : Nat) : Network :=
  match w.waiting[i]? with
  | none => w
  | some (asker, target) => { w with waiting := w.waiting.eraseIdx i }.start asker target

/-- The end of an exchange: the target answers, or the time is up. -/
def answer (w : Network) (x : Exchange) : Network × Except ClusterError Message :=
  match x.timeout with
  | some ms => (w, .error (.timeout (ms * 1000000)))
  | none =>
    match w.respond x.target x.request with
    | (w', .ok reply) => (w', transmit reply)
    | (w', .error e) => (w', .error e)

/-- End an exchange. -/
def finish (w : Network) (x : Exchange) : Network :=
  let (w', outcome) := w.answer x
  w'.conclude x.asker x.target outcome

/-- End the exchange that is underway at a position. -/
def endAt (w : Network) (i : Nat) : Network :=
  match w.underway[i]? with
  | none => w
  | some x =>
    { w with underway := w.underway.eraseIdx i, clock := max w.clock x.due }.finish x

/-- Let the clock move on to a time. -/
def moveTo (w : Network) (time : Nat) : Network :=
  { w with clock := max w.clock time, horizon := w.serial }

/-- Whether an exchange ends now, before others begin. -/
def isDue (w : Network) (x : Exchange) : Bool := x.due ≤ w.clock && x.number < w.horizon

/-- The next time at which an exchange ends, if that is before a limit. -/
def nextTime? (w : Network) (limit : Nat) : Option Nat :=
  ((w.underway.map Exchange.due).filter (· < limit)).min?

/-- The network after the event whose turn it is, unless there is none before a limit. What is due
ends first, then all that waits begins, then the clock moves on. -/
def next? (w : Network) (limit : Nat) : Option Network :=
  if w.clock < limit then
    match w.underway.findIdx? w.isDue with
    | some i => some (w.endAt i)
    | none => if w.waiting.isEmpty then (w.nextTime? limit).map w.moveTo else some (w.beginAt 0)
  else none

/-- Follow the events before a limit, so many at most, and move on to the limit. -/
def runUntil (limit : Nat) : Nat → Network → Network
  | 0, w => w
  | events + 1, w =>
    match w.next? limit with
    | some w' => runUntil limit events w'
    | none => if w.clock < limit then w.moveTo limit else w

/-- Let the clock run for some milliseconds. What is due at the last moment is left over. -/
def run (w : Network) (ms events : Nat) : Network := runUntil (w.clock + ms) events w

end Network

end WorkStealing

import WorkStealing.Cluster.Config
import WorkStealing.Cluster.Rounds
import WorkStealing.Driver.Lifecycle

/-!
# Nodes

A node asks its neighbors for tasks when its driver runs dry, and answers the requests of others.
Tasks that it hands out stay on its books until the reply that carries them has left, and are given
back when the reply could not leave. Everything goes through one service context of the driver.
-/

namespace WorkStealing

/-- A driver that takes part in a cluster. -/
structure Node where
  id : Location
  driver : Driver
  /-- The service context that tasks are given and taken through. -/
  context : ContextId
  rounds : Rounds
  /-- How many tasks are asked for, and handed out, at once. -/
  chunkSize : UInt32
  /-- How long an answer may take. -/
  timeoutMs : Nat
  /-- Whether the node has left: it asks no more and has nothing to give. -/
  shuttingDown : Bool := false
deriving Inhabited

/-- What a node has made ready for a requester. -/
structure Handout where
  reply : Message
  /-- The tasks in the reply, still in flight on the node. -/
  tasks : List TaskHandle := []
  /-- The neighbors to ask in turn, because the node had nothing. -/
  asked : List Location := []
deriving DecidableEq, Repr, Inhabited

namespace Node

/-- Join a cluster with a running driver. A node is never its own neighbor. -/
def join (id : Location) (driver : Driver) (neighbors : List Location) (protocol : ProtocolConfig) :
    Except ClusterError Node :=
  match driver.openContext (.ofIndex 0) with
  | (_, .error e) => .error (.scheduler e)
  | (driver', .ok context) =>
    .ok {
      id := id
      driver := driver'
      context := context
      rounds := .new (neighbors.filter fun n => n ≠ id) protocol.throttleFactor
      chunkSize := max protocol.chunkSize 1
      timeoutMs := protocol.requestTimeoutMs.toNat }

/-- Join a cluster as a configuration says. -/
def joinAs (c : NodeConfig) (driver : Driver) : Except ClusterError Node :=
  join c.node driver c.neighborLocations c.protocol

def outstanding (n : Node) : Nat := n.driver.outstanding

/-- The node ran out of work; the answer lists the neighbors to ask. -/
def trigger (n : Node) (requester : Option Location) : Node × List Location :=
  if n.shuttingDown then (n, [])
  else
    let (rounds, asked) := n.rounds.exhausted requester
    ({ n with rounds := rounds }, asked)

/-- The request that the node sends to each neighbor that it asks. -/
def request (n : Node) (time : Timestamp) (id : Uuid) : Message :=
  { topic := TakeRequest.topic
    sender := n.id
    payload := TakeRequest.toBytes { requester := n.id, maxTasks := n.chunkSize }
    timestamp := time
    correlationId := id }

/-- Give the driver tasks that came from elsewhere. -/
def adopt (n : Node) (tasks : List TaskHandle) : Node :=
  { n with driver := tasks.foldl (fun d t => (d.give n.context t Hint.none).1) n.driver }

/-- The answer that an exchange brought. -/
def responseOf (outcome : Except ClusterError Message) : Except ClusterError TakeResponse :=
  match outcome with
  | .error e => .error e
  | .ok reply =>
    match reply.takeResponse? with
    | some response => .ok response
    | none => .error .deserialization

/-- End an exchange with a neighbor: take in its tasks, or note the failure. -/
def conclude (n : Node) (neighbor : Location) (outcome : Except ClusterError Message) : Node :=
  match responseOf outcome with
  | .ok response =>
    let (rounds, tasks) := n.rounds.answered neighbor response
    { n with rounds := rounds }.adopt tasks
  | .error e => { n with rounds := n.rounds.failed neighbor e.isUnreachable }

/-- Take in a reply that came after its exchange had ended. Only answers count. -/
def receiveLate (n : Node) (reply : Message) : Node :=
  if reply.topic = TakeResponse.topic then
    match reply.takeResponse? with
    | some response =>
      let (rounds, tasks) := n.rounds.answeredLate response.responder response
      { n with rounds := rounds }.adopt tasks
    | none => n
  else n

/-- The reply to a request. -/
def replyTo (n : Node) (request : Message) (time : Timestamp) (response : TakeResponse) : Message :=
  request.reply TakeResponse.topic n.id response.toBytes time

/-- Make an answer ready. Its tasks stay in flight until `settle` or `restore`; a node that has
nothing to give asks its own neighbors, but not the requester. -/
def handOut (n : Node) (request : Message) (time : Timestamp) : Node × Except ClusterError Handout :=
  if request.topic ≠ TakeRequest.topic then
    (n, .error (.transport (.unexpectedTopic request.topic)))
  else
    match request.takeRequest? with
    | none => (n, .error .deserialization)
    | some take =>
      if n.shuttingDown then (n, .ok { reply := n.replyTo request time (.closing n.id) })
      else
        let limit := (min take.maxTasks n.chunkSize).toNat
        match n.driver.takeBatch n.context limit with
        | (driver, .error e) => ({ n with driver := driver }, .error (.scheduler e))
        | (driver, .ok tasks) =>
          let (n', asked) :=
            if tasks.isEmpty ∧ 0 < limit then
              { n with driver := driver }.trigger (some take.requester)
            else ({ n with driver := driver }, [])
          let reply := n.replyTo request time { responder := n.id, tasks := tasks }
          (n', .ok { reply := reply, tasks := tasks, asked := asked })

/-- The reply that carries tasks has left: they are the requester's now. -/
def settle (n : Node) (tasks : List TaskHandle) : Node :=
  { n with driver := tasks.foldl (fun d t => (d.done n.context t).1) n.driver }

/-- The reply that carries tasks never left: make them runnable here again. Each is given before it
is released, so that the node never looks idle in between. -/
def restore (n : Node) (tasks : List TaskHandle) : Node :=
  { n with
    driver := tasks.foldl
      (fun d t => ((d.give n.context t Hint.none).1.done n.context t).1) n.driver }

/-- Answer a request whose reply cannot get lost. -/
def respond (n : Node) (request : Message) (time : Timestamp) : Node × Except ClusterError Handout :=
  match n.handOut request time with
  | (n', .ok handout) => (n'.settle handout.tasks, .ok handout)
  | (n', .error e) => (n', .error e)

/-- Leave the cluster: ask for no more work and answer every further request as closing. -/
def shutDown (n : Node) : Node := { n with shuttingDown := true }

/-- The node, for a person to read. -/
def shown (n : Node) : String :=
  Text.shownRecord "DistributedScheduler"
    [("node", Text.shownPart "Location" (Text.shownNat n.id.index)),
      ("context", Text.shownPart "ContextId" (Text.shownNat n.context.index)),
      ("chunk_size", Text.shownNat n.chunkSize.toNat),
      ("shutting_down", Text.shownBool n.shuttingDown)]

end Node

/-- A request as a responder meets it. -/
inductive Arrival where
  /-- It cannot be read. -/
  | unreadable
  /-- It can be read; the reply gets through or not. -/
  | message (request : Message) (replyFails : Bool)
deriving DecidableEq, Repr, Inhabited

/-- A reply as it was handed over for sending. -/
structure Sending where
  reply : Message
  sent : Bool
deriving DecidableEq, Repr, Inhabited

namespace Node

/-- Serve one request. The answer lists the neighbors to ask and the reply, if there is one. -/
def serveOne (n : Node) (time : Timestamp) : Arrival → Node × List Location × Option Sending
  | .unreadable => (n, [], none)
  | .message request replyFails =>
    match n.handOut request time with
    | (n', .error _) => (n', [], none)
    | (n', .ok handout) =>
      (if replyFails then n'.restore handout.tasks else n'.settle handout.tasks, handout.asked,
        some { reply := handout.reply, sent := !replyFails })

/-- Serve requests one after the other. A request without an answer is passed over. -/
def serve (n : Node) (time : Timestamp) : List Arrival → Node × List Location × List Sending
  | [] => (n, [], [])
  | arrival :: rest =>
    let (n', asked, sending) := n.serveOne time arrival
    let (n'', asked', sendings) := n'.serve time rest
    (n'', asked ++ asked', sending.toList ++ sendings)

end Node

end WorkStealing

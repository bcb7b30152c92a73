import WorkStealing.Cluster.Node
import WorkStealing.Text.Digits

/-!
# Records of clusters

The written forms of messages and of what a node knows of its neighbors.
-/

namespace WorkStealing

def NeighborStatus.toDatum : NeighborStatus → Datum
  | .idle => .str "idle"
  | .requested => .str "requested"

namespace Neighbor

/-- The values of a neighbor under their names. -/
def fields (n : Neighbor) : List (String × Datum) :=
  [("location", n.location.toDatum), ("status", n.status.toDatum),
    ("can_accept_requests", .bool n.accepting), ("requests_sent", .nat n.requestsSent),
    ("tasks_received", .nat n.tasksReceived), ("failures", .nat n.failures)]

def toDatum (n : Neighbor) : Datum := .ofFields n.fields

/-- The values of a neighbor without their names. -/
def row (n : Neighbor) : Datum := .list (n.fields.map Prod.snd)

end Neighbor

def Rounds.rows (r : Rounds) : Datum := .list (r.neighbors.map Neighbor.row)

def Node.row (n : Node) : Datum := .list [n.id.toDatum, .nat n.outstanding, n.rounds.rows]

/-- An envelope as a table, the payload in hexadecimal digits. -/
def Message.toHexDatum (m : Message) : Datum :=
  .ofFields
    [("topic", .str m.topic), ("sender", m.sender.toDatum),
      ("payload", .str (Text.hexText m.payload)), ("timestamp", .str m.timestamp.text),
      ("correlation_id", .str m.correlationId.text), ("version", .nat m.version.toNat)]

end WorkStealing

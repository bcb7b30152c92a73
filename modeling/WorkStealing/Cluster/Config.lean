import WorkStealing.Cluster.Error
import WorkStealing.Record.Scheduler
import WorkStealing.Text.Toml.Document

/-!
# Cluster configuration

Who a node is, where it listens, who its neighbors are and how it asks them for tasks. A
configuration comes from a text, parts of which the environment may override.
-/

namespace WorkStealing

/-- How a node asks its neighbors. -/
structure ProtocolConfig where
  /-- Empty searches between two rounds, for each neighbor but one. -/
  throttleFactor : UInt32 := 20
  /-- Tasks asked for at once. -/
  chunkSize : UInt32 := 4
  /-- How long to wait for an answer. -/
  requestTimeoutMs : UInt64 := 2000
deriving DecidableEq, Repr, Inhabited

structure NeighborConfig where
  location : Location
  endpoint : String
deriving DecidableEq, Repr, Inhabited

/-- A node's place in a cluster. -/
structure NodeConfig where
  node : Location
  listen : String := "ipc:///tmp/hive/node-0.sock"
  protocol : ProtocolConfig := {}
  neighbors : List NeighborConfig := []
deriving DecidableEq, Repr, Inhabited

namespace ProtocolConfig

def toDatum (p : ProtocolConfig) : Datum :=
  .ofFields
    [("throttle_factor", .nat p.throttleFactor.toNat), ("chunk_size", .nat p.chunkSize.toNat),
      ("request_timeout_ms", .nat p.requestTimeoutMs.toNat)]

def ofDatum? (f : Format) (d : Datum) : Option ProtocolConfig := do
  let p ← Parts.read f ["throttle_factor", "chunk_size", "request_timeout_ms"] d
  let usual : ProtocolConfig := {}
  return {
    throttleFactor := ← p.defaulted "throttle_factor" usual.throttleFactor Datum.readWord32
    chunkSize := ← p.defaulted "chunk_size" usual.chunkSize Datum.readWord32
    requestTimeoutMs :=
      ← p.defaulted "request_timeout_ms" usual.requestTimeoutMs Datum.readWord64 }

end ProtocolConfig

namespace NeighborConfig

def toDatum (n : NeighborConfig) : Datum :=
  .ofFields [("location", n.location.toDatum), ("endpoint", .str n.endpoint)]

def ofDatum? (f : Format) (d : Datum) : Option NeighborConfig := do
  let p ← Parts.read f ["location", "endpoint"] d
  return {
    location := ← p.required "location" Location.ofDatum?
    endpoint := ← p.required "endpoint" (Datum.readText f) }

end NeighborConfig

namespace NodeConfig

def toDatum (c : NodeConfig) : Datum :=
  .ofFields
    [("node", c.node.toDatum), ("listen", .str c.listen), ("protocol", c.protocol.toDatum),
      ("neighbors", .list (c.neighbors.map NeighborConfig.toDatum))]

def ofDatum? (f : Format) (d : Datum) : Option NodeConfig := do
  let p ← Parts.read f ["node", "listen", "protocol", "neighbors"] d
  return {
    node := ← p.required "node" Location.ofDatum?
    listen := ← p.defaulted "listen" "ipc:///tmp/hive/node-0.sock" (Datum.readText f)
    protocol := ← p.defaulted "protocol" {} (ProtocolConfig.ofDatum? f)
    neighbors :=
      ← p.defaulted "neighbors" [] (Datum.readList (NeighborConfig.ofDatum? f)) }

/-- The configuration of nodes on one machine that reach each other at the usual sockets. -/
def forLocal (node : Location) (neighbors : List Location) : NodeConfig :=
  { node := node
    listen := (Endpoint.forNode node).text
    neighbors := neighbors.map fun n => { location := n, endpoint := (Endpoint.forNode n).text } }

/-- Read an endpoint of a configuration. -/
def endpoint (s : String) : Except ClusterFault Endpoint :=
  match Endpoint.parse s with
  | .ok e => .ok e
  | .error f => .error (.endpoint f)

def listenEndpoint (c : NodeConfig) : Except ClusterFault Endpoint := endpoint c.listen

def neighborLocations (c : NodeConfig) : List Location := c.neighbors.map NeighborConfig.location

/-- The first fault in a list of neighbors: the node itself, one named before, or a bad endpoint. -/
def neighborFault? (node : Location) (seen : List Location) :
    List NeighborConfig → Option ClusterFault
  | [] => none
  | n :: rest =>
    if n.location = node then some (.selfNeighbor node)
    else if seen.contains n.location then some (.repeatedNeighbor n.location)
    else
      match endpoint n.endpoint with
      | .error f => some f
      | .ok _ => neighborFault? node (n.location :: seen) rest

/-- The first fault of a configuration: its sizes, its neighbors, then its own endpoint. -/
def fault? (c : NodeConfig) : Option ClusterFault :=
  if c.protocol.chunkSize = 0 then some .noChunk
  else if c.protocol.requestTimeoutMs = 0 then some .noTimeout
  else
    match neighborFault? c.node [] c.neighbors, c.listenEndpoint with
    | some f, _ => some f
    | none, .error f => some f
    | none, .ok _ => none

def validate (c : NodeConfig) : Except ClusterFault Unit :=
  match c.fault? with
  | some f => .error f
  | none => .ok ()

/-- A number from a variable that is set, in place of the usual one. -/
def numberFrom (env : Environment) (key : String) (bound usual : Nat) : Except ClusterFault Nat :=
  match env.lookup key with
  | none => .ok usual
  | some v =>
    match Text.parseNat? bound v with
    | some n => .ok n
    | none => .error (.badNumber key v)

/-- The variables that override a configuration. -/
def variableNames : List String :=
  ["HIVE_DIST_NODE", "HIVE_DIST_LISTEN", "HIVE_DIST_PROTOCOL_THROTTLE_FACTOR",
    "HIVE_DIST_PROTOCOL_CHUNK_SIZE", "HIVE_DIST_PROTOCOL_REQUEST_TIMEOUT_MS"]

/-- Put values of the environment in place of a configuration's own. -/
def override (env : Environment) (c : NodeConfig) : Except ClusterFault NodeConfig := do
  let p := c.protocol
  let node ← numberFrom env "HIVE_DIST_NODE" (UInt32.size - 1) c.node.id.toNat
  let factor ←
    numberFrom env "HIVE_DIST_PROTOCOL_THROTTLE_FACTOR" (UInt32.size - 1) p.throttleFactor.toNat
  let chunk ← numberFrom env "HIVE_DIST_PROTOCOL_CHUNK_SIZE" (UInt32.size - 1) p.chunkSize.toNat
  let timeout ←
    numberFrom env "HIVE_DIST_PROTOCOL_REQUEST_TIMEOUT_MS" (UInt64.size - 1) p.requestTimeoutMs.toNat
  return {
    c with
    node := ⟨UInt32.ofNat node⟩
    listen := (env.lookup "HIVE_DIST_LISTEN").getD c.listen
    protocol :=
      { throttleFactor := UInt32.ofNat factor
        chunkSize := UInt32.ofNat chunk
        requestTimeoutMs := UInt64.ofNat timeout } }

/-- Read a configuration, override it, and check the outcome. -/
def ofToml (env : Environment) (s : String) : Except ClusterError NodeConfig :=
  match (Text.Toml.parse? s).bind (ofDatum? .toml) with
  | none => .error .configSyntax
  | some c =>
    match override env c with
    | .error f => .error (.config f)
    | .ok c' =>
      match c'.validate with
      | .error f => .error (.config f)
      | .ok () => .ok c'

end NodeConfig

namespace Endpoint

def toDatum : Endpoint → Datum
  | .ipc name => .ofFields [("type", .str "Ipc"), ("address", .str name)]
  | .tcp host port =>
    .ofFields
      [("type", .str "Tcp"),
        ("address", .ofFields [("host", .str host), ("port", .nat port.toNat)])]

/-- The nesting that a part may have which is read before its type is known. -/
def bufferLimit : Nat := 127

/-- The address of a kind of endpoint. -/
def addressOfDatum? (kind : String) (d : Datum) : Option Endpoint :=
  match kind with
  | "Ipc" => (d.readText .json).map .ipc
  | "Tcp" =>
    match d with
    | .table _ => do
      let p ← Parts.read .json ["host", "port"] d
      return .tcp (← p.required "host" (Datum.readText .json)) (← p.required "port" Datum.readWord16)
    | _ => none
  | _ => none

/-- Whether the address comes before the type, so that it is read in full first. -/
def addressFirst : Datum → Bool
  | .table entries =>
    (entries.filterMap fun e =>
      match e.1 with
      | .text name _ => if name = "type" ∨ name = "address" then some name else none
      | _ => none).head? = some "address"
  | _ => false

/-- Read an endpoint from its kind and its address. -/
def ofDatum? (d : Datum) : Option Endpoint := do
  let p ← Parts.read .json ["type", "address"] d
  let kind ← p.required "type" Datum.readCase
  let address ← p.required "address" some
  if addressFirst d && !(address.isReadable && address.depth ≤ bufferLimit) then
    none
  else addressOfDatum? kind address

end Endpoint

end WorkStealing

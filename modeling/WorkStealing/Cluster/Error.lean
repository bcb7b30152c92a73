import WorkStealing.Endpoint
import WorkStealing.SchedError
import WorkStealing.Text.Duration

/-!
# Faults between nodes

Every way in which a call between nodes, or the setup of a cluster, can fail. The wording stands in
`ClusterError.message` and the functions it calls.
-/

namespace WorkStealing

/-- Why a message did not come through. -/
inductive TransportFault where
  /-- A request came under a topic that is not one of requests. -/
  | unexpectedTopic (topic : String)
  /-- A message came in the wrong number of frames. -/
  | frameCount (count : Nat)
  | stated (text : String)
deriving DecidableEq, Repr, Inhabited

def TransportFault.message : TransportFault → String
  | .unexpectedTopic t => "unexpected request topic '" ++ t ++ "'"
  | .frameCount n => "expected [topic, envelope] frames, got " ++ Nat.repr n
  | .stated text => text

/-- Why a cluster cannot be set up. -/
inductive ClusterFault where
  | badNumber (key value : String)
  | noChunk
  | noTimeout
  | selfNeighbor (node : Location)
  | repeatedNeighbor (node : Location)
  | endpoint (fault : EndpointFault)
  /-- Exchanges have nothing to run on. -/
  | noRuntime
  | stated (text : String)
deriving DecidableEq, Repr, Inhabited

def ClusterFault.message : ClusterFault → String
  | .badNumber key v => key ++ "='" ++ v ++ "' is not a valid number"
  | .noChunk => "protocol.chunk_size must be at least 1"
  | .noTimeout => "protocol.request_timeout_ms must be at least 1"
  | .selfNeighbor n => "node " ++ n.text ++ " lists itself as a neighbor"
  | .repeatedNeighbor n => "neighbor " ++ n.text ++ " is listed twice"
  | .endpoint f => f.message
  | .noRuntime => "the distributed scheduler needs an async runtime"
  | .stated text => text

/-- Why a call between nodes failed. -/
inductive ClusterError where
  | serialization
  | deserialization
  /-- A socket failed. -/
  | socket
  | transport (cause : TransportFault)
  /-- No answer came in a time, in nanoseconds. -/
  | timeout (nanos : Nat)
  | unreachable (node : Location)
  | config (cause : ClusterFault)
  /-- A configuration text is not well formed. -/
  | configSyntax
  /-- A configuration file cannot be read. -/
  | configFile
  | scheduler (cause : SchedError)
deriving DecidableEq, Repr, Inhabited

namespace ClusterError

def message : ClusterError → String
  | .serialization => "serialization error"
  | .deserialization => "deserialization error"
  | .socket => "zeromq error"
  | .transport f => "transport error: " ++ f.message
  | .timeout n => "request timeout after " ++ Text.durationText n
  | .unreachable n => "neighbor " ++ n.text ++ " is unreachable"
  | .config f => "config error: " ++ f.message
  | .configSyntax => "config parse error"
  | .configFile => "config I/O error"
  | .scheduler e => "scheduler error: " ++ e.message

/-- Whether the neighbor itself could not be reached, so that asking it again is pointless. -/
def isUnreachable : ClusterError → Bool
  | .unreachable _ | .socket => true
  | _ => false

end ClusterError

end WorkStealing

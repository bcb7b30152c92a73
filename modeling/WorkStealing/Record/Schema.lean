import WorkStealing.Cluster.Config
import WorkStealing.Record.Dynamic
import WorkStealing.Text.Json
import WorkStealing.Wire.Take

/-!
# Schemas

Types of records by name, so that a text or a payload can be read as a type that is only known when
the program runs, and written in the type's own form.
-/

namespace WorkStealing

/-- Reads a datum from a format as some type and writes it in the type's form. -/
abbrev Schema := Format → Datum → Option Datum

namespace Schema

/-- The schema of a type that reads every format alike. -/
def plain {α : Type} (ofDatum? : Datum → Option α) (toDatum : α → Datum) : Schema :=
  fun _ d => (ofDatum? d).map toDatum

/-- The schema of a type that reads formats differently. -/
def of {α : Type} (ofDatum? : Format → Datum → Option α) (toDatum : α → Datum) : Schema :=
  fun f d => (ofDatum? f d).map toDatum

/-- The schema of a configuration or of the scheduler's own values. -/
def ofRecord? : String → Option Schema
  | "TaskHandle" => some (plain TaskHandle.ofDatum? TaskHandle.toDatum)
  | "Location" => some (plain Location.ofDatum? Location.toDatum)
  | "ContextId" => some (plain ContextId.ofDatum? ContextId.toDatum)
  | "AffinityKey" => some (plain AffinityKey.ofDatum? AffinityKey.toDatum)
  | "Hint" => some (of Hint.ofDatum? Hint.toDatum)
  | "TaskState" => some (of TaskState.ofDatum? TaskState.toDatum)
  | "SchedulerConfig" => some (of SchedulerConfig.ofDatum? SchedulerConfig.toDatum)
  | "SchedulerSettings" => some (of SchedulerSettings.ofDatum? SchedulerSettings.toDatum)
  | "NodeSettings" => some (of NodeSettings.ofDatum? NodeSettings.toDatum)
  | "Config" => some (of Settings.ofDatum? Settings.toDatum)
  | "Count" => some (plain Count.ofDatum? Count.toDatum)
  | "CountScope" => some (plain CountScope.ofDatum? CountScope.toDatum)
  | "End" => some (plain End.ofDatum? End.toDatum)
  | "AffinityState" => some (plain GroupState.ofDatum? GroupState.toDatum)
  | "RunLevel" => some (plain RunLevel.ofDatum? RunLevel.toDatum)
  | "Direction" => some (plain Direction.ofDatum? Direction.toDatum)
  | "ArenaIndex" => some (of ArenaIndex.ofDatum? ArenaIndex.toDatum)
  | "ProtocolConfig" => some (of ProtocolConfig.ofDatum? ProtocolConfig.toDatum)
  | "NeighborConfig" => some (of NeighborConfig.ofDatum? NeighborConfig.toDatum)
  | "DistConfig" => some (of NodeConfig.ofDatum? NodeConfig.toDatum)
  | "Transport" => some (plain Endpoint.ofDatum? Endpoint.toDatum)
  | "TakeRequest" => some (of TakeRequest.ofDatum? TakeRequest.toDatum)
  | "TakeResponse" => some (of TakeResponse.ofDatum? TakeResponse.toDatum)
  | _ => none

/-- The schema of a payload. -/
def ofPayload? : String → Option Schema
  | "request" => some (of TakeRequest.ofDatum? TakeRequest.toDatum)
  | "response" => some (of TakeResponse.ofDatum? TakeResponse.toDatum)
  | "u64" => some (plain (Datum.readNat (UInt64.size - 1)) .nat)
  | "u32" => some (plain (Datum.readNat (UInt32.size - 1)) .nat)
  | "i64" => some (plain Datum.readInt64 .int)
  | "bool" => some (plain Datum.readBool .bool)
  | "string" => some (of Datum.readText .str)
  | "vec_u64" =>
    some (plain (Datum.readNats (UInt64.size - 1)) fun ns => .list (ns.map .nat))
  | "hint" => some (of Hint.ofDatum? Hint.toDatum)
  | "json" => some (plain Datum.usual id)
  | _ => none

/-- Read a JSON text as a type of records and write it in the type's form. -/
def canonical? (type text : String) : Option Datum :=
  if type = "Message" then (Message.ofJson? text).map Message.toDatum
  else (ofRecord? type).bind fun schema => (Text.Json.parse? text).bind (schema .json)

/-- Read a message's payload as a type. -/
def payload? (m : Message) (type : String) : Option Datum :=
  (ofPayload? type).bind fun schema => m.payloadDatum?.bind (schema .messagePack)

end Schema

end WorkStealing

import WorkStealing.Cluster.Error
import WorkStealing.Record.Scheduler
import WorkStealing.Text.Timestamp
import WorkStealing.Text.Uuid
import WorkStealing.Wire.MessagePack

/-!
# Messages

What nodes send each other: an envelope around a payload that is already bytes. The topic names the
kind of payload, and a reply carries the correlation identifier of its request.
-/

namespace WorkStealing

/-- An envelope. -/
structure Message where
  topic : String
  /-- The node that the message comes from. -/
  sender : Location
  payload : List UInt8
  timestamp : Timestamp
  correlationId : Uuid
  version : UInt16 := 1
deriving DecidableEq, Repr, Inhabited

namespace Message

def partNames : List String :=
  ["topic", "sender", "payload", "timestamp", "correlation_id", "version"]

/-- The parts of an envelope as they go over the wire. -/
def parts (m : Message) : List Datum :=
  [.str m.topic, m.sender.toDatum, .bytes m.payload, .str m.timestamp.text,
    .bytes m.correlationId.bytes, .nat m.version.toNat]

/-- The bytes of an envelope. -/
def toBytes (m : Message) : List UInt8 := Wire.MessagePack.encode (.list m.parts)

/-- A point in time, which is a text in every format. -/
def readTimestamp : Datum → Option Timestamp
  | .text s _ => Timestamp.parse? s
  | _ => none

/-- An identifier: bytes in a binary format, else a text. -/
def readUuid (f : Format) : Datum → Option Uuid
  | .bytes bs | .rawText bs => if f.isBinary then Uuid.ofBytes? bs else none
  | .text s _ => if f.isBinary then none else Uuid.parse? s
  | _ => none

def ofDatum? (f : Format) (d : Datum) : Option Message := do
  let p ← Parts.read f partNames d
  return {
    topic := ← p.required "topic" (Datum.readText f)
    sender := ← p.required "sender" Location.ofDatum?
    payload := ← p.required "payload" Datum.readBytes
    timestamp := ← p.required "timestamp" readTimestamp
    correlationId := ← p.required "correlation_id" (readUuid f)
    version := ← p.defaulted "version" 1 Datum.readWord16 }

/-- Read the bytes of an envelope. -/
def ofBytes? (bs : List UInt8) : Option Message :=
  (Wire.MessagePack.decode bs).bind (ofDatum? .messagePack)

/-- Read an envelope from a JSON text. Control characters may stand in the payload only. -/
def ofJson? (s : String) : Option Message := do
  let d ← Text.Json.parseLoose? s
  let p ← Parts.read .json partNames d
  let payload ← p.required "payload" some
  if d.countLeaves Datum.isRawText = payload.countLeaves Datum.isRawText then ofDatum? .json d
  else none

/-- An envelope as a table, the payload as numbers. -/
def toDatum (m : Message) : Datum :=
  .ofFields
    [("topic", .str m.topic), ("sender", m.sender.toDatum),
      ("payload", .list (m.payload.map fun b => .nat b.toNat)),
      ("timestamp", .str m.timestamp.text), ("correlation_id", .str m.correlationId.text),
      ("version", .nat m.version.toNat)]

/-- The payload as a datum. -/
def payloadDatum? (m : Message) : Option Datum := Wire.MessagePack.decode m.payload

/-- A reply to a message. -/
def reply (m : Message) (topic : String) (sender : Location) (payload : List UInt8)
    (timestamp : Timestamp) : Message :=
  { topic := topic
    sender := sender
    payload := payload
    timestamp := timestamp
    correlationId := m.correlationId }

/-- The frames in which a message travels: its topic and its bytes. -/
def toFrames (m : Message) : List (List UInt8) := [m.topic.toUTF8.toList, m.toBytes]

/-- Read a message from frames, after empty ones that only delimit. -/
def ofFrames (frames : List (List UInt8)) : Except ClusterError Message :=
  match frames.dropWhile List.isEmpty with
  | _ :: envelope :: _ =>
    match ofBytes? envelope with
    | some m => .ok m
    | none => .error .deserialization
  | few => .error (.transport (.frameCount few.length))

end Message

end WorkStealing

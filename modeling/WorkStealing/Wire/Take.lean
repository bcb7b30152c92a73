import WorkStealing.Wire.Message

/-!
# Take requests and their answers

A node that runs dry asks a neighbor for tasks, and the neighbor answers with tasks that it no longer
holds.
-/

namespace WorkStealing

/-- A node asks for tasks. -/
structure TakeRequest where
  requester : Location
  /-- How many tasks it wants at most. -/
  maxTasks : UInt32
deriving DecidableEq, Repr, Inhabited

/-- A node's answer. -/
structure TakeResponse where
  responder : Location
  tasks : List TaskHandle := []
  /-- The responder goes down and will answer no more. -/
  shuttingDown : Bool := false
deriving DecidableEq, Repr, Inhabited

namespace TakeRequest

/-- The topic of requests. -/
def topic : String := "hive.take.request"

def parts (r : TakeRequest) : List Datum := [r.requester.toDatum, .nat r.maxTasks.toNat]

def toBytes (r : TakeRequest) : List UInt8 := Wire.MessagePack.encode (.list r.parts)

def toDatum (r : TakeRequest) : Datum :=
  .ofFields [("requester", r.requester.toDatum), ("max_tasks", .nat r.maxTasks.toNat)]

def ofDatum? (f : Format) (d : Datum) : Option TakeRequest := do
  let p ← Parts.read f ["requester", "max_tasks"] d
  return {
    requester := ← p.required "requester" Location.ofDatum?
    maxTasks := ← p.required "max_tasks" Datum.readWord32 }

end TakeRequest

namespace TakeResponse

/-- The topic of answers. -/
def topic : String := "hive.take.response"

/-- The answer of a node that goes down. -/
def closing (responder : Location) : TakeResponse :=
  { responder := responder, shuttingDown := true }

def parts (r : TakeResponse) : List Datum :=
  [r.responder.toDatum, .list (r.tasks.map TaskHandle.toDatum), .bool r.shuttingDown]

def toBytes (r : TakeResponse) : List UInt8 := Wire.MessagePack.encode (.list r.parts)

def toDatum (r : TakeResponse) : Datum :=
  .ofFields
    [("responder", r.responder.toDatum), ("tasks", .list (r.tasks.map TaskHandle.toDatum)),
      ("shutting_down", .bool r.shuttingDown)]

def ofDatum? (f : Format) (d : Datum) : Option TakeResponse := do
  let p ← Parts.read f ["responder", "tasks", "shutting_down"] d
  return {
    responder := ← p.required "responder" Location.ofDatum?
    tasks := ← p.required "tasks" (Datum.readList TaskHandle.ofDatum?)
    shuttingDown := ← p.defaulted "shutting_down" false Datum.readBool }

end TakeResponse

namespace Message

/-- The take request in a message's payload. -/
def takeRequest? (m : Message) : Option TakeRequest :=
  m.payloadDatum?.bind (TakeRequest.ofDatum? .messagePack)

/-- The answer in a message's payload. -/
def takeResponse? (m : Message) : Option TakeResponse :=
  m.payloadDatum?.bind (TakeResponse.ofDatum? .messagePack)

end Message

end WorkStealing

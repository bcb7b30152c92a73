import WorkStealing.Count
import WorkStealing.Driver.Basic
import WorkStealing.Record.Reader
import WorkStealing.Runlevel.Basic
import WorkStealing.Settings

/-!
# Records of the scheduler

The written forms of the scheduler's values: `ofDatum?` reads one and `toDatum` writes one.
-/

namespace WorkStealing

namespace TaskHandle

def toDatum (t : TaskHandle) : Datum := .nat t.raw.toNat

def ofDatum? (d : Datum) : Option TaskHandle := d.readWord64.map TaskHandle.mk

end TaskHandle

namespace Location

def toDatum (l : Location) : Datum := .nat l.id.toNat

def ofDatum? (d : Datum) : Option Location := d.readWord32.map Location.mk

end Location

namespace ContextId

def toDatum (c : ContextId) : Datum := .nat c.id.toNat

def ofDatum? (d : Datum) : Option ContextId := d.readWord32.map ContextId.mk

end ContextId

namespace AffinityKey

def toDatum (k : AffinityKey) : Datum := .nat k.id.toNat

def ofDatum? (d : Datum) : Option AffinityKey := d.readWord64.map AffinityKey.mk

end AffinityKey

namespace Hint

def toDatum (h : Hint) : Datum :=
  .ofFields
    [("priority", .ofOption (fun p => .nat p.toNat) h.priority),
      ("affinity", .ofOption AffinityKey.toDatum h.affinity),
      ("mapping", .ofOption Location.toDatum h.mapping)]

def ofDatum? (f : Format) (d : Datum) : Option Hint := do
  let p ← Parts.read f ["priority", "affinity", "mapping"] d
  return {
    priority := ← p.optional "priority" Datum.readWord32
    affinity := ← p.optional "affinity" AffinityKey.ofDatum?
    mapping := ← p.optional "mapping" Location.ofDatum? }

end Hint

namespace TaskState

def toDatum (s : TaskState) : Datum :=
  .ofFields
    [("priority", .ofOption (fun p => .nat p.toNat) s.priority),
      ("affinity", .ofOption AffinityKey.toDatum s.affinity),
      ("dominant_slot", .ofOption Location.toDatum s.dominantSlot)]

def ofDatum? (f : Format) (d : Datum) : Option TaskState := do
  let p ← Parts.read f ["priority", "affinity", "dominant_slot"] d
  return {
    priority := ← p.optional "priority" Datum.readWord32
    affinity := ← p.optional "affinity" AffinityKey.ofDatum?
    dominantSlot := ← p.optional "dominant_slot" Location.ofDatum? }

end TaskState

namespace ArenaIndex

def toDatum (i : ArenaIndex) : Datum :=
  .ofFields [("slot", .nat i.slot.toNat), ("generation", .nat i.generation.toNat)]

def ofDatum? (f : Format) (d : Datum) : Option ArenaIndex := do
  let p ← Parts.read f ["slot", "generation"] d
  return {
    slot := ← p.required "slot" Datum.readWord32
    generation := ← p.required "generation" Datum.readWord32 }

end ArenaIndex

namespace End

def toDatum : End → Datum
  | .tail => .str "Tail"
  | .head => .str "Head"

def ofDatum? (d : Datum) : Option End :=
  match d.readCase with
  | some "Tail" => some .tail
  | some "Head" => some .head
  | _ => none

end End

namespace Count

def toDatum : Count → Datum
  | .exact n => .ofFields [("Exact", .nat n)]
  | .nonEmpty => .str "NonEmpty"
  | .empty => .str "Empty"

def ofDatum? (d : Datum) : Option Count :=
  match d.readCase, d.readCaseWith with
  | some "NonEmpty", _ => some .nonEmpty
  | some "Empty", _ => some .empty
  | _, some ("Exact", n) => n.readSize.map .exact
  | _, _ => none

end Count

namespace CountScope

def toDatum : CountScope → Datum
  | .any => .str "Any"
  | .all => .str "All"
  | .level l => .ofFields [("Level", .nat l)]
  | .worker w => .ofFields [("Worker", w.toDatum)]
  | .staging => .str "Staging"

def ofDatum? (d : Datum) : Option CountScope :=
  match d.readCase, d.readCaseWith with
  | some "Any", _ => some .any
  | some "All", _ => some .all
  | some "Staging", _ => some .staging
  | _, some ("Level", l) => l.readSize.map .level
  | _, some ("Worker", w) => (Location.ofDatum? w).map .worker
  | _, _ => none

end CountScope

namespace GroupState

def toDatum (s : GroupState) : Datum := .str s.text

def ofDatum? (d : Datum) : Option GroupState :=
  d.readCase.bind fun name => [GroupState.new, .staged, .active].find? fun s => s.text = name

end GroupState

namespace RunLevel

/-- The name of a level as a case. -/
def caseName : RunLevel → String
  | .configParse => "ConfigParse"
  | .networkOk => "NetworkOk"
  | .pdOk => "PdOk"
  | .memoryOk => "MemoryOk"
  | .guidOk => "GuidOk"
  | .computeOk => "ComputeOk"
  | .userOk => "UserOk"

def toDatum (l : RunLevel) : Datum := .str l.caseName

def ofDatum? (d : Datum) : Option RunLevel :=
  d.readCase.bind fun name => all.find? fun l => l.caseName = name

end RunLevel

namespace Direction

def toDatum : Direction → Datum
  | .up => .str "Up"
  | .down => .str "Down"

def ofDatum? (d : Datum) : Option Direction :=
  match d.readCase with
  | some "Up" => some .up
  | some "Down" => some .down
  | _ => none

end Direction

namespace SchedulerConfig

def toDatum (c : SchedulerConfig) : Datum :=
  .ofFields
    [("workers", .nat c.workers), ("priority_levels", .nat c.priorityLevels),
      ("default_priority", .nat c.defaultPriority.toNat),
      ("deque_max_capacity", .nat c.dequeCapacity), ("staging_slots", .nat c.stagingSlots),
      ("staging_slot_capacity", .nat c.stagingSlotCapacity),
      ("max_steal_repels", .nat c.maxStealRepels.toNat), ("affinity", .bool c.affinity)]

def ofDatum? (f : Format) (d : Datum) : Option SchedulerConfig := do
  let p ← Parts.read f
    ["workers", "priority_levels", "default_priority", "deque_max_capacity", "staging_slots",
      "staging_slot_capacity", "max_steal_repels", "affinity"] d
  let usual : SchedulerConfig := {}
  return {
    workers := ← p.defaulted "workers" usual.workers Datum.readSize
    priorityLevels := ← p.defaulted "priority_levels" usual.priorityLevels Datum.readSize
    defaultPriority := ← p.defaulted "default_priority" usual.defaultPriority Datum.readWord32
    dequeCapacity := ← p.defaulted "deque_max_capacity" usual.dequeCapacity Datum.readSize
    stagingSlots := ← p.defaulted "staging_slots" usual.stagingSlots Datum.readSize
    stagingSlotCapacity :=
      ← p.defaulted "staging_slot_capacity" usual.stagingSlotCapacity Datum.readSize
    maxStealRepels := ← p.defaulted "max_steal_repels" usual.maxStealRepels Datum.readWord32
    affinity := ← p.defaulted "affinity" usual.affinity Datum.readBool }

end SchedulerConfig

namespace SchedulerSettings

def toDatum (s : SchedulerSettings) : Datum :=
  .ofFields
    [("workers", .nat s.workers), ("priority_levels", .nat s.priorityLevels),
      ("max_steal_repels", .nat s.maxStealRepels.toNat),
      ("deque_max_capacity", .nat s.dequeCapacity), ("affinity_enabled", .bool s.affinityEnabled)]

def ofDatum? (f : Format) (d : Datum) : Option SchedulerSettings := do
  let p ← Parts.read f
    ["workers", "priority_levels", "max_steal_repels", "deque_max_capacity", "affinity_enabled"] d
  return {
    workers := ← p.required "workers" Datum.readSize
    priorityLevels := ← p.required "priority_levels" Datum.readSize
    maxStealRepels := ← p.required "max_steal_repels" Datum.readWord32
    dequeCapacity := ← p.required "deque_max_capacity" Datum.readSize
    affinityEnabled := ← p.required "affinity_enabled" Datum.readBool }

end SchedulerSettings

namespace NodeSettings

def toDatum (s : NodeSettings) : Datum :=
  .ofFields [("node_id", .nat s.nodeId.toNat), ("dist_config", .ofOption .str s.distConfig)]

def ofDatum? (f : Format) (d : Datum) : Option NodeSettings := do
  let p ← Parts.read f ["node_id", "dist_config"] d
  return {
    nodeId := ← p.required "node_id" Datum.readWord32
    distConfig := ← p.optional "dist_config" (Datum.readText f) }

end NodeSettings

namespace Settings

def toDatum (s : Settings) : Datum :=
  .ofFields
    [("profile", .str s.profile), ("scheduler", s.scheduler.toDatum), ("node", s.node.toDatum)]

def ofDatum? (f : Format) (d : Datum) : Option Settings := do
  let p ← Parts.read f ["profile", "scheduler", "node"] d
  return {
    profile := ← p.required "profile" (Datum.readText f)
    scheduler := ← p.required "scheduler" (SchedulerSettings.ofDatum? f)
    node := ← p.required "node" (NodeSettings.ofDatum? f) }

end Settings

namespace ContextStats

def toDatum (s : ContextStats) : Datum :=
  .ofFields
    [("given", .nat s.given), ("taken", .nat s.taken), ("stolen", .nat s.stolen),
      ("empty_takes", .nat s.emptyTakes), ("done", .nat s.done)]

end ContextStats

namespace Metrics

/-- The fields of a snapshot, in the order in which they are shown. -/
def fields (m : Metrics) : List (String × Datum) :=
  [("workers", .nat m.workers), ("gives", .nat m.counters.gives),
    ("takes_own", .nat m.counters.takesOwn), ("takes_active", .nat m.counters.takesActive),
    ("takes_staged", .nat m.counters.takesStaged), ("steals", .nat m.counters.steals),
    ("group_steals", .nat m.counters.groupSteals), ("empty_takes", .nat m.counters.emptyTakes),
    ("repels", .nat m.repels), ("done", .nat m.counters.done),
    ("outstanding", .nat m.counters.outstanding), ("max_load", .nat m.counters.maxLoad),
    ("staged_groups", .nat m.stagedGroups), ("affinity_groups", .nat m.affinityGroups),
    ("contexts", .list (m.contexts.map ContextStats.toDatum))]

end Metrics

end WorkStealing

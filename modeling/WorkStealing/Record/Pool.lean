import WorkStealing.Driver.Basic
import WorkStealing.Record.Scheduler
import WorkStealing.Runlevel.Rehearsal
import WorkStealing.Text.Digits

/-!
# Records of pools and drivers

The written forms of what pools, contexts and drivers report.
-/

namespace WorkStealing

/-- A number by the sixteen hexadecimal digits of its bits. -/
def Datum.ofFloat (f : Float) : Datum := .str (Text.hexWord f.toBits)

def Datum.ofTasks (ts : List TaskHandle) : Datum := .list (ts.map TaskHandle.toDatum)

def StealCursor.toDatum (c : StealCursor) : Datum :=
  .ofFields [("victim", .ofOption .nat c.victim), ("level", .nat c.level)]

namespace Source

/-- The fields that a kind of source has. -/
def fields : Source → List (String × Datum)
  | .own level => [("kind", .str "own"), ("level", .nat level)]
  | .active g => [("kind", .str "active"), ("group", g.toDatum)]
  | .staged g => [("kind", .str "staged"), ("group", g.toDatum)]
  | .stolen v level => [("kind", .str "stolen"), ("victim", v.toDatum), ("level", .nat level)]
  | .stolenFromGroup v g =>
    [("kind", .str "stolen_from_group"), ("victim", v.toDatum), ("group", g.toDatum)]

def toDatum (s : Source) : Datum := .ofFields (s.fields ++ [("is_steal", .bool s.isSteal)])

end Source

def Taken.toDatum (t : Taken) : Datum :=
  .ofFields [("task", t.task.toDatum), ("source", t.source.toDatum)]

def Placement.toDatum : Placement → Datum
  | .worker w level => .ofFields [("worker", w.toDatum), ("level", .nat level)]
  | .group key published =>
    .ofFields [("group", key.toDatum), ("published", .bool published)]

/-- The fields of a group. -/
def AffinityGroup.fields (g : AffinityGroup) : List (String × Datum) :=
  [("state", g.state.toDatum), ("drainer", .ofOption Location.toDatum g.stage.drainer?),
    ("len", .nat g.size), ("empty", .bool g.isEmpty), ("in_flight", .nat g.inFlight),
    ("stagings", .nat g.stagings), ("idle", .bool g.isIdle)]

namespace Pool

/-- The fields of a worker. -/
def workerFields (p : Pool) (w : Location) : List (String × Datum) :=
  [("available", .bool (p.isAvailable w)), ("attempts", .nat (p.stealAttempts w)),
    ("active", .ofOption AffinityKey.toDatum (p.activeKey? w))]

/-- The state and the size of the group with a key, if there is one. -/
def groupDatum (p : Pool) (key : AffinityKey) : Datum :=
  let g := p.group? key
  .ofFields
    [("state", .ofOption (fun g => g.state.toDatum) g), ("len", .ofOption (fun g => .nat g.size) g)]

def toDatum (p : Pool) : Datum :=
  .ofFields
    [("workers", .list ((List.range p.workerCount).map fun i =>
        let w := Location.ofIndex i
        .ofFields (p.workerFields w ++ [("own", (p.count (.worker w)).toDatum)]))),
      ("groups", .nat p.groupCount), ("staging", .nat p.staging.size), ("repels", .nat p.repels)]

end Pool

/-- The fields of a context. -/
def Context.fields (c : Context) : List (String × Datum) :=
  [("id", c.id.toDatum), ("loc", .ofOption Location.toDatum c.location), ("bound", .bool c.isBound),
    ("cursor", c.cursor.toDatum), ("in_flight", .nat c.inFlight.length), ("stats", c.stats.toDatum)]

/-- A snapshot with the figures that follow from it. -/
def Metrics.toDatum (m : Metrics) : Datum :=
  .ofFields (m.fields ++
    [("takes", .nat m.counters.takes), ("steal_ratio", .ofFloat m.counters.stealRatio)])

def Driver.statusDatum (d : Driver) : Datum :=
  .ofFields
    [("accepting", .bool d.accepting), ("contexts", .nat d.contexts.length),
      ("workers", .nat d.workerCount), ("config", d.config.toDatum)]

def Parking.Notice.toDatum : Parking.Notice → Datum
  | .idle w => .list [.str "idle", w.toDatum]
  | .ready w => .list [.str "ready", .ofOption Location.toDatum w]

def Sighting.toDatum (s : Sighting) : Datum :=
  .list
    [.str s.participant, .str s.level.text, .nat s.phase, s.direction.toDatum, .bool s.accepted]

end WorkStealing

import WorkStealing.SchedulerConfig
import WorkStealing.Text.Digits
import WorkStealing.Text.UpperCase

/-!
# Settings from the environment

A node's settings as its environment gives them. A profile may have values of its own: the variable
with the profile's name in front wins over the plain one. Empty variables count as absent, and a
value that cannot be read counts as the usual one.
-/

namespace WorkStealing

/-- Environment variables by name. -/
abbrev Environment := List (String × String)

/-- Settings of the scheduler. -/
structure SchedulerSettings where
  /-- Number of workers; 0 leaves it to the machine. -/
  workers : Nat := 0
  priorityLevels : Nat := 4
  maxStealRepels : UInt32 := 0
  dequeCapacity : Nat := 1048576
  affinityEnabled : Bool := true
deriving DecidableEq, Repr, Inhabited

/-- Settings of the node. -/
structure NodeSettings where
  nodeId : UInt32 := 0
  /-- Where the node's cluster configuration is, if it is in a cluster. -/
  distConfig : Option String := none
deriving DecidableEq, Repr, Inhabited

structure Settings where
  /-- The active profile; the empty name is the usual one. -/
  profile : String := ""
  scheduler : SchedulerSettings := {}
  node : NodeSettings := {}
deriving DecidableEq, Repr, Inhabited

/-- The scheduler configuration that settings amount to. -/
def SchedulerConfig.ofSettings (s : SchedulerSettings) : SchedulerConfig :=
  { workers := s.workers
    priorityLevels := s.priorityLevels
    dequeCapacity := s.dequeCapacity
    maxStealRepels := s.maxStealRepels
    affinity := s.affinityEnabled }

namespace Environment

/-- A variable that is set to something. -/
def get? (env : Environment) (name : String) : Option String :=
  (env.lookup name).filter fun v => v ≠ ""

/-- A variable as a profile sees it: its own value first. -/
def profiled? (env : Environment) (profile name : String) : Option String :=
  let own := if profile = "" then none else env.get? (profile ++ "_" ++ name)
  own.orElse fun _ => env.get? name

/-- A number up to a bound, or the usual one. -/
def natOr (env : Environment) (profile name : String) (bound usual : Nat) : Nat :=
  ((env.profiled? profile name).bind (Text.parseNat? bound)).getD usual

/-- A switch, or its usual position. -/
def switchOr (env : Environment) (profile name : String) (usual : Bool) : Bool :=
  match env.profiled? profile name with
  | some v =>
    if ["1", "true", "yes", "on"].contains v then true
    else if ["0", "false", "no", "off"].contains v then false
    else usual
  | none => usual

end Environment

namespace Settings

/-- The variables that settings come from. -/
def variableNames : List String :=
  ["HIVE_WORKERS", "HIVE_PRIORITY_LEVELS", "HIVE_MAX_STEAL_REPELS", "HIVE_DEQUE_MAX_CAPACITY",
    "HIVE_AFFINITY", "HIVE_NODE_ID", "HIVE_DIST_CONFIG"]

/-- The settings for a profile. -/
def forProfile (env : Environment) (name : String) : Settings :=
  let p := Text.upperCase name
  let size (key : String) (usual : Nat) : Nat := env.natOr p key SchedulerConfig.maxSize usual
  let word (key : String) : UInt32 := UInt32.ofNat (env.natOr p key (UInt32.size - 1) 0)
  { profile := p
    scheduler :=
      { workers := size "HIVE_WORKERS" 0
        priorityLevels := size "HIVE_PRIORITY_LEVELS" 4
        maxStealRepels := word "HIVE_MAX_STEAL_REPELS"
        dequeCapacity := size "HIVE_DEQUE_MAX_CAPACITY" 1048576
        affinityEnabled := env.switchOr p "HIVE_AFFINITY" true }
    node :=
      { nodeId := word "HIVE_NODE_ID"
        distConfig := env.profiled? p "HIVE_DIST_CONFIG" } }

/-- The settings for the profile that the environment names. -/
def ofEnvironment (env : Environment) : Settings :=
  forProfile env (Text.upperCase ((env.lookup "HIVE_PROFILE").getD ""))

def label (s : Settings) : String := if s.profile = "" then "default" else s.profile

/-- Whether the node is in a cluster. -/
def isDistributed (s : Settings) : Bool := s.node.distConfig.isSome

end Settings

end WorkStealing

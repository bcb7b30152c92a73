import WorkStealing.Cluster.Node
import WorkStealing.Command.Arguments
import WorkStealing.Command.Seeding

/-!
# A node from start to end

What a node does with its arguments: it reads its settings, brings its scheduler up, joins its
cluster, gives itself tasks, lets the workers run them all, tears down and reports.
-/

namespace WorkStealing.Command

/-- What a node finds where it runs. -/
structure Machine where
  environment : Environment := []
  /-- Workers that run at once. -/
  parallelism : Nat := 1
  /-- The text of the file at a path. -/
  file? : String → Option String := fun _ => none

/-- Why a node ended early. -/
inductive Failure where
  | scheduler (cause : SchedError)
  | cluster (cause : ClusterError)
  /-- The cluster configuration at a path is no good. -/
  | loading (path : String)
  | seeding (cause : SeedingError)
deriving DecidableEq, Repr, Inhabited

def Failure.message : Failure → String
  | .scheduler e => e.message
  | .cluster e => e.message
  | .loading path => "loading " ++ path
  | .seeding e => e.message

/-- How a run ended. -/
inductive Outcome where
  | misused (fault : UsageFault)
  | helped
  | versioned
  | failed (cause : Failure)
  | finished (metrics : Metrics)
deriving DecidableEq, Repr, Inhabited

namespace Outcome

/-- The status that the program leaves behind. -/
def exitCode : Outcome → UInt8
  | .misused _ => 2
  | .failed _ => 1
  | .helped | .versioned | .finished _ => 0

end Outcome

/-- The name of the program and its version. -/
def versionText : String := "hive-node 0.1.0"

/-- What the program is for. -/
def aboutText : String := "Run a hive scheduling node"

/-- The scheduler's sizes: the settings, but for the workers that an argument names. -/
def schedulerConfig (s : Settings) (a : Arguments) : SchedulerConfig :=
  let c := SchedulerConfig.ofSettings s.scheduler
  { c with workers := a.workers.getD c.workers }

/-- The node's place in a cluster, from the file at a path. -/
def loadNode (m : Machine) (path : String) (d : Driver) : Except Failure Node :=
  match (m.file? path).map (NodeConfig.ofToml m.environment) with
  | some (.ok c) =>
    match Node.joinAs c d with
    | .ok n => .ok n
    | .error e => .error (.cluster e)
  | some (.error _) | none => .error (.loading path)

/-- Where the cluster configuration is: an argument wins over the settings. -/
def configPath? (s : Settings) (a : Arguments) : Option String := a.distConfig.or s.node.distConfig

/-- The driver and the node's number, after the node has joined its cluster if it has one. -/
def joined (m : Machine) (s : Settings) (a : Arguments) (d : Driver) :
    Except Failure (Driver × UInt32) :=
  match configPath? s a with
  | none => .ok (d, s.node.nodeId)
  | some path => (loadNode m path d).map fun n => (n.driver, n.id.id)

/-- Let every worker run what it finds. -/
def work (d : Driver) : Driver :=
  (List.range d.workerCount).foldl (fun d w => (d.drain (.ofIndex w)).1) d

/-- Run a node with its arguments until all tasks are done. -/
def runNode (m : Machine) (a : Arguments) : Except Failure Metrics :=
  let s := Settings.ofEnvironment m.environment
  match Driver.new (schedulerConfig s a) m.parallelism with
  | .error e => .error (.scheduler e)
  | .ok d =>
    match Driver.manager.bringUp d with
    | (_, _, .error e) => .error (.scheduler e)
    | (manager, d, .ok ()) =>
      match joined m s a d with
      | .error e => .error e
      | .ok (d, node) =>
        match seed d m.parallelism node a.tasks a.affinityGroups with
        | (_, .error e) => .error (.seeding e)
        | (d, .ok ()) =>
          match manager.tearDown (work d) with
          | (_, _, .error e) => .error (.scheduler e)
          | (_, d, .ok ()) => .ok d.metrics

/-- All variables that a node with a profile may read. -/
def variableNames (profile : String) : List String :=
  let settings := Settings.variableNames
  "HIVE_PROFILE" :: settings ++ settings.map (fun name => profile ++ "_" ++ name)
    ++ Parameter.all.filterMap Parameter.environmentName? ++ NodeConfig.variableNames

/-- The file that a command line makes a node read, if any. -/
def fileToRead? (env : Environment) (arguments : List String) : Option String :=
  match readArguments env arguments with
  | .ok (.run a) => configPath? (Settings.ofEnvironment env) a
  | _ => none

/-- Run the program. -/
def run (m : Machine) (arguments : List String) : Outcome :=
  match readArguments m.environment arguments with
  | .error fault => .misused fault
  | .ok .help => .helped
  | .ok .version => .versioned
  | .ok (.run a) =>
    match runNode m a with
    | .ok metrics => .finished metrics
    | .error e => .failed e

end WorkStealing.Command

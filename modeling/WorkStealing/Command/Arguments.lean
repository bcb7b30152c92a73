import WorkStealing.Settings

/-!
# Command-line arguments

The options of a node and how they are read. An option comes from the command line or else from its
variable of the environment; each may be given once. The arguments are read from the left, and the
first fault ends the reading, as does a question for the version or for help.
-/

namespace WorkStealing.Command

/-- What a node is told to do. -/
structure Arguments where
  /-- Number of workers, in place of the one in the settings. -/
  workers : Option Nat := none
  /-- Tasks that the node starts with. -/
  tasks : Nat := 10000
  /-- Groups that the tasks are spread over. -/
  affinityGroups : Nat := 0
  /-- How long a task runs, in microseconds. -/
  workMicros : Nat := 50
  /-- Where the cluster configuration is. -/
  distConfig : Option String := none
  /-- Whether the node ends when all its tasks are done. -/
  exitWhenIdle : Bool := false
deriving DecidableEq, Repr, Inhabited

/-- The options. -/
inductive Parameter where
  | workers
  | tasks
  | affinityGroups
  | workMicros
  | distConfig
  | exitWhenIdle
deriving DecidableEq, Repr, Inhabited

namespace Parameter

def all : List Parameter :=
  [.workers, .tasks, .affinityGroups, .workMicros, .distConfig, .exitWhenIdle]

def name : Parameter → String
  | .workers => "workers"
  | .tasks => "tasks"
  | .affinityGroups => "affinity-groups"
  | .workMicros => "work-us"
  | .distConfig => "dist-config"
  | .exitWhenIdle => "exit-when-idle"

/-- The variable that an option falls back to. -/
def environmentName? : Parameter → Option String
  | .workers | .distConfig => none
  | .tasks => some "HIVE_NODE_TASKS"
  | .affinityGroups => some "HIVE_NODE_AFFINITY_GROUPS"
  | .workMicros => some "HIVE_NODE_WORK_US"
  | .exitWhenIdle => some "HIVE_NODE_EXIT_WHEN_IDLE"

/-- Whether a value follows the option. -/
def takesValue : Parameter → Bool
  | .exitWhenIdle => false
  | _ => true

def ofName? (name : String) : Option Parameter := all.find? fun p => p.name = name

end Parameter

/-- Why a command line cannot be read. -/
inductive UsageFault where
  | unknown (argument : String)
  | missingValue (parameter : Parameter)
  | unexpectedValue (parameter : String) (value : String)
  | badValue (parameter : Parameter) (value : String)
  | repeated (parameter : Parameter)
deriving DecidableEq, Repr, Inhabited

def UsageFault.message : UsageFault → String
  | .unknown argument => "unexpected argument '" ++ argument ++ "' found"
  | .missingValue p => "a value is required for '--" ++ p.name ++ "' but none was supplied"
  | .unexpectedValue name value => "unexpected value '" ++ value ++ "' for '--" ++ name ++ "' found"
  | .badValue p value => "invalid value '" ++ value ++ "' for '--" ++ p.name ++ "'"
  | .repeated p => "the argument '--" ++ p.name ++ "' cannot be used multiple times"

/-- What a command line asks for. -/
inductive Request where
  | run (arguments : Arguments)
  | version
  | help
deriving DecidableEq, Repr, Inhabited

/-- The largest number that an option can have. -/
def maxNumber : Nat := UInt64.size - 1

def readSwitch : String → Option Bool
  | "true" => some true
  | "false" => some false
  | _ => none

namespace Arguments

/-- Set an option, if the value is one of its values. -/
def set? (a : Arguments) (p : Parameter) (value : String) : Option Arguments :=
  match p with
  | .workers => (Text.parseNat? maxNumber value).map fun n => { a with workers := some n }
  | .tasks => (Text.parseNat? maxNumber value).map fun n => { a with tasks := n }
  | .affinityGroups => (Text.parseNat? maxNumber value).map fun n => { a with affinityGroups := n }
  | .workMicros => (Text.parseNat? maxNumber value).map fun n => { a with workMicros := n }
  | .distConfig => some { a with distConfig := some value }
  | .exitWhenIdle => (readSwitch value).map fun b => { a with exitWhenIdle := b }

end Arguments

/-- Options read so far. -/
structure Reading where
  arguments : Arguments := {}
  seen : List Parameter := []
deriving DecidableEq, Repr, Inhabited

namespace Reading

/-- Take in an option with its value. -/
def add (r : Reading) (p : Parameter) (value : String) : Except UsageFault Reading :=
  match r.arguments.set? p value with
  | none => .error (.badValue p value)
  | some a =>
    if r.seen.contains p then .error (.repeated p)
    else .ok { arguments := a, seen := p :: r.seen }

/-- Take an option from the environment unless the command line had it. -/
def fallBack (env : Environment) (r : Reading) (p : Parameter) : Except UsageFault Reading :=
  if r.seen.contains p then .ok r
  else
    match p.environmentName?.bind fun name => List.lookup name env with
    | some value => r.add p value
    | none => .ok r

/-- Take the options that are left from the environment. -/
def finish (env : Environment) (r : Reading) : Except UsageFault Request :=
  (Parameter.all.foldlM (fallBack env) r).map fun r' => .run r'.arguments

end Reading

/-- One argument by its form. -/
inductive Word where
  /-- Two dashes and a name, which a value may be joined to. -/
  | long (name : String) (value : Option String)
  /-- One dash and letters, of which the first counts. -/
  | short (letter : Char)
  /-- Two dashes alone: no options follow. -/
  | endOfOptions
  | plain
deriving DecidableEq, Repr, Inhabited

/-- A name and the value after the first equals sign, if there is one. -/
def splitValue (cs : List Char) : String × Option String :=
  match cs.span (· ≠ '=') with
  | (name, _ :: value) => (.ofList name, some (.ofList value))
  | (name, []) => (.ofList name, none)

def Word.ofArgument (argument : String) : Word :=
  match argument.toList with
  | ['-', '-'] => .endOfOptions
  | '-' :: '-' :: cs =>
    let (name, value) := splitValue cs
    .long name value
  | '-' :: letter :: _ => .short letter
  | _ => .plain

/-- Whether an argument can be the value of the option before it. -/
def Word.canBeValue (w : Word) : Bool := w = .plain

/-- Read the arguments that are left. -/
def readWords (env : Environment) : List String → Reading → Except UsageFault Request
  | [], r => r.finish env
  | argument :: rest, r =>
    match Word.ofArgument argument with
    | .plain => .error (.unknown argument)
    | .endOfOptions =>
      match rest with
      | [] => r.finish env
      | extra :: _ => .error (.unknown extra)
    | .short 'h' => .ok .help
    | .short 'V' => .ok .version
    | .short _ => .error (.unknown argument)
    | .long "help" none => .ok .help
    | .long "version" none => .ok .version
    | .long name joined =>
      match Parameter.ofName? name, joined with
      | none, none => .error (.unknown argument)
      | none, some value =>
        if name = "help" ∨ name = "version" then .error (.unexpectedValue name value)
        else .error (.unknown argument)
      | some p, some value =>
        if p.takesValue then (r.add p value).bind (readWords env rest)
        else .error (.unexpectedValue name value)
      | some p, none =>
        if p.takesValue then
          match rest with
          | [] => .error (.missingValue p)
          | value :: rest' =>
            if (Word.ofArgument value).canBeValue then (r.add p value).bind (readWords env rest')
            else .error (.missingValue p)
        else (r.add p "true").bind (readWords env rest)

/-- Read a command line. -/
def readArguments (env : Environment) (arguments : List String) : Except UsageFault Request :=
  readWords env arguments {}

end WorkStealing.Command

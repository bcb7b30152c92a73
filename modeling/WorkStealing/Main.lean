import WorkStealing.Command.Run
import WorkStealing.Record.Pool

/-!
# The program

Reads the environment and the file that the arguments name, runs the node and prints how it ended.
-/

namespace WorkStealing

/-- The variables of the environment that a node may read. -/
def readEnvironment : IO Environment := do
  let profile := Text.upperCase ((← IO.getEnv "HIVE_PROFILE").getD "")
  let mut found : Environment := []
  for name in Command.variableNames profile do
    if let some value ← IO.getEnv name then
      found := (name, value) :: found
  return found

/-- The text of a file, if it can be read. -/
def readText? (path : String) : IO (Option String) := do
  try
    return some (← IO.FS.readFile path)
  catch _ =>
    return none

/-- How many workers the machine runs at once; one where it does not say. -/
def readParallelism : IO Nat := do
  let text := (← readText? "/proc/cpuinfo").getD ""
  let processors := (text.splitOn "\n").filter fun line => line.startsWith "processor"
  return max processors.length 1

/-- Write down how a run ended. -/
def report : Command.Outcome → IO Unit
  | .misused fault => IO.eprintln ("error: " ++ fault.message)
  | .helped => IO.println Command.aboutText
  | .versioned => IO.println Command.versionText
  | .failed cause => IO.eprintln ("Error: " ++ cause.message)
  | .finished metrics => IO.println (Text.Json.renderLines (.ofFields metrics.fields))

end WorkStealing

open WorkStealing in
/-- Run a node. -/
def main (arguments : List String) : IO UInt32 := do
  let environment ← readEnvironment
  let path := Command.fileToRead? environment arguments
  let text ←
    match path with
    | some p => readText? p
    | none => pure none
  let machine : Command.Machine :=
    { environment := environment
      parallelism := ← readParallelism
      file? := fun p => if some p = path then text else none }
  let outcome := Command.run machine arguments
  report outcome
  return outcome.exitCode.toUInt32

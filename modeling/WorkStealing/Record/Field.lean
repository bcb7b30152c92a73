import WorkStealing.Record.Scheduler

/-!
# Fields with usual values

Single fields of a table, for readers that put up with what is missing: a field that is missing, null
or of another type counts as its usual value.
-/

namespace WorkStealing.Datum

/-- A field of a table, unless it is null. -/
def get? (d : Datum) (name : String) : Option Datum :=
  match d with
  | .table entries =>
    entries.findSome? fun e =>
      match e with
      | (.text s _, v) => if s = name then (match v with | .null => none | v => some v) else none
      | _ => none
  | _ => none

def nat? (d : Datum) (name : String) : Option Nat := (d.get? name).bind readSize

def getNat (d : Datum) (name : String) (usual : Nat) : Nat := (d.nat? name).getD usual

def natOr0 (d : Datum) : Nat := d.readSize.getD 0

def str? (d : Datum) (name : String) : Option String := (d.get? name).bind (readText .json)

def getStr (d : Datum) (name usual : String) : String := (d.str? name).getD usual

def getBool (d : Datum) (name : String) (usual : Bool) : Bool :=
  ((d.get? name).bind readBool).getD usual

def getList (d : Datum) (name : String) : List Datum := ((d.get? name).bind (readList some)).getD []

def loc? (d : Datum) (name : String) : Option Location := (d.get? name).bind Location.ofDatum?

def locAt (d : Datum) (name : String) : Location := (d.loc? name).getD default

def ctxAt (d : Datum) (name : String) : ContextId :=
  ((d.get? name).bind ContextId.ofDatum?).getD default

def taskAt (d : Datum) (name : String) : TaskHandle :=
  ((d.get? name).bind TaskHandle.ofDatum?).getD default

def keyAt (d : Datum) (name : String) : AffinityKey :=
  ((d.get? name).bind AffinityKey.ofDatum?).getD default

def hintAt (d : Datum) : Hint := ((d.get? "hint").bind (Hint.ofDatum? .json)).getD Hint.none

def scopeAt (d : Datum) : CountScope := ((d.get? "scope").bind CountScope.ofDatum?).getD .any

def endAt (d : Datum) : End := ((d.get? "end").bind End.ofDatum?).getD .tail

def indexAt (d : Datum) : ArenaIndex :=
  ((d.get? "index").bind (ArenaIndex.ofDatum? .json)).getD default

def levelAt (d : Datum) : RunLevel := ((d.get? "level").bind RunLevel.ofDatum?).getD .configParse

def dirAt (d : Datum) : Direction := ((d.get? "dir").bind Direction.ofDatum?).getD .up

def configAt (d : Datum) : SchedulerConfig :=
  ((d.get? "config").bind (SchedulerConfig.ofDatum? .json)).getD {}

/-- A field with texts under names. -/
def textsAt (d : Datum) (name : String) : List (String × String) :=
  match d.get? name with
  | some (.table entries) =>
    entries.filterMap fun e =>
      match e with
      | (.text k _, .text v _) => some (k, v)
      | _ => none
  | _ => []

end WorkStealing.Datum

import WorkStealing.Record.Datum

/-!
# TOML: tables under construction

A document adds to its tables in three ways: by a header of the table itself, by a header of a table
inside it, and by a dotted key. What was made in one way may be added to in some of the others; the
rules stand in `descend`, `addPair`, `openTable` and `openElement`.
-/

namespace WorkStealing.Text.Toml

/-- How a table came to be. -/
inductive Origin where
  /-- By its own header. -/
  | stated
  /-- By the header of a table inside it. -/
  | implied
  /-- By a dotted key. -/
  | dotted
deriving DecidableEq, Repr, Inhabited

/-- An entry of a table. -/
inductive Node where
  | value (d : Datum)
  | table (origin : Origin) (entries : List (String × Node))
  /-- An array of tables, the last one first. -/
  | tables (elements : List (List (String × Node)))
deriving Inhabited

abbrev Entries := List (String × Node)

/-- Put an entry in place of the one of its name. -/
def replaceEntry (name : String) (n : Node) (es : Entries) : Entries :=
  es.map fun e => if e.1 = name then (name, n) else e

/-- Change the table at the end of a path. Missing tables are made on the way, and a step into an
array of tables leads to its last element. A dotted path may not enter a table that has a header. -/
def descend (byKey : Bool) (change : Origin → Entries → Option Entries) :
    List String → Origin → Entries → Option Entries
  | [], origin, es => change origin es
  | name :: rest, _, es =>
    match es.lookup name with
    | none =>
      let made : Origin := if byKey then .dotted else .implied
      (descend byKey change rest made []).map fun inner => es ++ [(name, .table made inner)]
    | some (.value _) => none
    | some (.tables []) => none
    | some (.tables (last :: earlier)) =>
      (descend byKey change rest .stated last).map fun inner =>
        replaceEntry name (.tables (inner :: earlier)) es
    | some (.table origin entries) =>
      if byKey && origin = .stated then none
      else
        (descend byKey change rest origin entries).map fun inner =>
          replaceEntry name (.table origin inner) es

/-- Add a value under a dotted key. A dotted key adds only to tables made by dotted keys, a simple
one only to others, and no name is used twice. -/
def addPair (path : List String) (name : String) (d : Datum) (origin : Origin) (es : Entries) :
    Option Entries :=
  descend true
    (fun o inner =>
      if (o = .dotted) = (path = []) ∨ (inner.lookup name).isSome then none
      else some (inner ++ [(name, .value d)]))
    path origin es

/-- Open the table of a header. It may have been implied before, but nothing else. -/
def openTable (path : List String) (name : String) (root : Entries) : Option Entries :=
  descend false
    (fun _ inner =>
      match inner.lookup name with
      | none => some (inner ++ [(name, .table .stated [])])
      | some (.table .implied entries) =>
        some (replaceEntry name (.table .stated entries) inner)
      | some _ => none)
    path .stated root

/-- Open a new element of the array of tables of a header. -/
def openElement (path : List String) (name : String) (root : Entries) : Option Entries :=
  descend false
    (fun _ inner =>
      match inner.lookup name with
      | none => some (inner ++ [(name, .tables [[]])])
      | some (.tables elements) => some (replaceEntry name (.tables ([] :: elements)) inner)
      | some _ => none)
    path .stated root

mutual

/-- The datum of an entry. -/
def nodeDatum : Node → Datum
  | .value d => d
  | .table _ entries => .table (entriesDatum entries)
  | .tables elements => .list (elementsDatum elements).reverse

def entriesDatum : List (String × Node) → List (Datum × Datum)
  | [] => []
  | (name, n) :: rest => (.str name, nodeDatum n) :: entriesDatum rest

def elementsDatum : List (List (String × Node)) → List Datum
  | [] => []
  | entries :: rest => .table (entriesDatum entries) :: elementsDatum rest

end

end WorkStealing.Text.Toml

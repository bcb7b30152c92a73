import WorkStealing.Record.Datum
import WorkStealing.Text.Json

/-!
# Reading records

How typed values are read from data. A record may be written as a table, with its parts in any order
and other parts besides, or as a list of its parts in order. Every reader answers `none` for data
that it does not accept.
-/

namespace WorkStealing

/-- The formats in which records are written. They differ in a few rules of reading. -/
inductive Format where
  | json
  | toml
  | messagePack
deriving DecidableEq, Repr, Inhabited

namespace Format

/-- Whether a list may have more elements than the record has parts. -/
def allowsSurplus : Format → Bool
  | .toml => true
  | .json | .messagePack => false

/-- Whether texts and bytes stand for each other, and parts may be named by their position. -/
def isBinary : Format → Bool
  | .messagePack => true
  | .json | .toml => false

end Format

namespace Datum

def readBool : Datum → Option Bool
  | .bool b => some b
  | _ => none

/-- A natural number up to a bound. -/
def readNat (bound : Nat) : Datum → Option Nat
  | .nat n => if n ≤ bound then some n else none
  | .int i => if 0 ≤ i ∧ i.toNat ≤ bound then some i.toNat else none
  | _ => none

/-- An integer of 64 bits with sign. -/
def readInt64 : Datum → Option Int
  | .nat n => if n < 0x8000000000000000 then some n else none
  | .int i => if -0x8000000000000000 ≤ i ∧ i < 0x8000000000000000 then some i else none
  | _ => none

def readWord64 (d : Datum) : Option UInt64 := (d.readNat (UInt64.size - 1)).map UInt64.ofNat

def readWord32 (d : Datum) : Option UInt32 := (d.readNat (UInt32.size - 1)).map UInt32.ofNat

def readWord16 (d : Datum) : Option UInt16 := (d.readNat (UInt16.size - 1)).map UInt16.ofNat

/-- A size: a natural number of 64 bits. -/
def readSize (d : Datum) : Option Nat := d.readNat (UInt64.size - 1)

/-- The text that bytes spell, if they spell one. -/
def textOfBytes? (bs : List UInt8) : Option String := String.fromUTF8? ⟨bs.toArray⟩

def readText (f : Format) : Datum → Option String
  | .text s _ => some s
  | .bytes bs => if f.isBinary then textOfBytes? bs else none
  | _ => none

/-- Bytes, or a text that is written as it is. -/
def readBytes : Datum → Option (List UInt8)
  | .bytes bs | .rawText bs => some bs
  | .text s plain => if plain then some s.toUTF8.toList else none
  | _ => none

/-- A list. No bytes at all are a list without elements. -/
def readList {α : Type} (read : Datum → Option α) : Datum → Option (List α)
  | .list items => items.mapM read
  | .bytes [] => some []
  | _ => none

/-- A list of natural numbers up to a bound. Bytes are such a list. -/
def readNats (bound : Nat) : Datum → Option (List Nat)
  | .bytes bs => (bs.map fun b => .nat b.toNat).mapM (readNat bound)
  | d => readList (readNat bound) d

/-- A case without content: its name, or a table that gives it no content. -/
def readCase : Datum → Option String
  | .text s _ => some s
  | .table [(.text s _, .null)] => some s
  | _ => none

/-- A case with content: its name and the content. -/
def readCaseWith : Datum → Option (String × Datum)
  | .table [(.text s _, d)] => some (s, d)
  | _ => none

/-- What a key of a table means for a record: the name of a part, or no part of it; the outer `none`
marks what cannot be a key at all. -/
def partNamed (f : Format) (names : List String) : Datum → Option (Option String)
  | .text s _ => some (if names.contains s then some s else none)
  | .bytes bs =>
    if f.isBinary then some ((textOfBytes? bs).filter names.contains) else none
  | .rawText _ => if f.isBinary then some none else none
  | .nat n => if f.isBinary then some names[n]? else none
  | _ => none

end Datum

/-- The parts of a record that were written. -/
structure Parts where
  /-- Whether the record was written as a list. -/
  positional : Bool
  found : List (String × Datum)

namespace Parts

/-- The parts among the entries of a table; none may come twice. -/
def ofEntries (f : Format) (names : List String) :
    List (Datum × Datum) → List (String × Datum) → Option Parts
  | [], found => some { positional := false, found := found }
  | (key, d) :: rest, found =>
    match key.partNamed f names with
    | none => none
    | some none => ofEntries f names rest found
    | some (some name) =>
      if (found.lookup name).isSome then none else ofEntries f names rest ((name, d) :: found)

/-- The parts of a record with the given names, from a table or a list. -/
def read (f : Format) (names : List String) : Datum → Option Parts
  | .table entries => ofEntries f names entries []
  | .list items =>
    if names.length < items.length && !f.allowsSurplus then none
    else some { positional := true, found := names.zip items }
  | _ => none

/-- A part that must be there. -/
def required {α : Type} (p : Parts) (name : String) (read : Datum → Option α) : Option α :=
  (p.found.lookup name).bind read

/-- A part that may be null, and may be left out of a table. -/
def optional {α : Type} (p : Parts) (name : String) (read : Datum → Option α) :
    Option (Option α) :=
  match p.found.lookup name with
  | none => if p.positional then none else some none
  | some .null => some none
  | some d => (read d).map some

/-- A part that stands for its usual value where it is left out. -/
def defaulted {α : Type} (p : Parts) (name : String) (usual : α) (read : Datum → Option α) :
    Option α :=
  match p.found.lookup name with
  | none => some usual
  | some d => read d

end Parts

end WorkStealing

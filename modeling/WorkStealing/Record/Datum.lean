/-!
# Data

The common form of values that are read from texts and messages, and of values on their way out. A
table keeps its entries in the order written, repeated keys included; what may repeat is for the
reader of the table to decide.
-/

namespace WorkStealing

/-- A value without a type. -/
inductive Datum where
  | null
  | bool (b : Bool)
  /-- A number written without a sign. -/
  | nat (n : Nat)
  /-- A number written with a sign. -/
  | int (i : Int)
  /-- A floating-point number, by its 64 bits. -/
  | float (bits : UInt64)
  /-- A text; the flag says that it was written as it is, without escapes. -/
  | text (s : String) (plain : Bool)
  | bytes (bs : List UInt8)
  /-- Bytes written as a text that no text field may hold. -/
  | rawText (bs : List UInt8)
  | list (items : List Datum)
  | table (entries : List (Datum × Datum))
  /-- Well formed, but no value that could be read. -/
  | unreadable
deriving Repr, Inhabited

namespace Datum

/-- A text as the program writes it. -/
def str (s : String) : Datum := .text s true

/-- A table from labelled parts. -/
def ofFields (fields : List (String × Datum)) : Datum := .table (fields.map fun f => (str f.1, f.2))

def ofOption {α : Type} (f : α → Datum) : Option α → Datum
  | some a => f a
  | none => .null

mutual

/-- How many leaves pass a test. -/
def countLeaves (test : Datum → Bool) : Datum → Nat
  | .list items => countItems test items
  | .table entries => countEntries test entries
  | d => if test d then 1 else 0

def countItems (test : Datum → Bool) : List Datum → Nat
  | [] => 0
  | d :: rest => countLeaves test d + countItems test rest

def countEntries (test : Datum → Bool) : List (Datum × Datum) → Nat
  | [] => 0
  | (key, d) :: rest => countLeaves test key + countLeaves test d + countEntries test rest

end

mutual

/-- How deeply lists and tables are nested. -/
def depth : Datum → Nat
  | .list items => depthItems items + 1
  | .table entries => depthEntries entries + 1
  | _ => 0

def depthItems : List Datum → Nat
  | [] => 0
  | d :: rest => max (depth d) (depthItems rest)

def depthEntries : List (Datum × Datum) → Nat
  | [] => 0
  | (key, d) :: rest => max (max (depth key) (depth d)) (depthEntries rest)

end

def isRawText : Datum → Bool
  | .rawText _ => true
  | _ => false

/-- Whether every text may be held by a text field. -/
def hasNoRawText (d : Datum) : Bool := d.countLeaves isRawText = 0

def isUnreadable : Datum → Bool
  | .unreadable => true
  | _ => false

/-- Whether every leaf can be read. -/
def isReadable (d : Datum) : Bool := d.countLeaves isUnreadable = 0

end Datum

end WorkStealing

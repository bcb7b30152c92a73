import WorkStealing.Record.Reader

/-!
# Values without a record

A value that is not read as any record still has rules: the keys of its tables are texts, of equal
keys the last one counts, and tables are written in the order of their keys.
-/

namespace WorkStealing.Datum

/-- Put a value under a key, in the order of keys, in place of any earlier one. -/
def putSorted (key : String) (d : Datum) : List (String × Datum) → List (String × Datum)
  | [] => [(key, d)]
  | (k, v) :: rest =>
    if key = k then (key, d) :: rest
    else if key < k then (key, d) :: (k, v) :: rest
    else (k, v) :: putSorted key d rest

/-- A floating-point number that is finite. -/
def finite (bits : UInt64) : Datum :=
  if bits.toNat / Nat.pow 2 52 % Nat.pow 2 11 = 2047 then .null else .float bits

mutual

/-- The value in its usual form, if it has one. The first key of a table must be a text, and a later
one may also be bytes that spell one. -/
def usual : Datum → Option Datum
  | .bytes _ | .rawText _ | .unreadable => none
  | .float bits => some (finite bits)
  | .text s _ => some (.str s)
  | .list items => (usualItems items).map .list
  | .table entries => (usualEntries true entries []).map ofFields
  | d => some d

def usualItems : List Datum → Option (List Datum)
  | [] => some []
  | d :: rest =>
    match usual d, usualItems rest with
    | some x, some xs => some (x :: xs)
    | _, _ => none

def usualEntries (first : Bool) :
    List (Datum × Datum) → List (String × Datum) → Option (List (String × Datum))
  | [], sorted => some sorted
  | (key, d) :: rest, sorted =>
    let name :=
      match key with
      | .text s _ => some s
      | .bytes bs => if first then none else textOfBytes? bs
      | _ => none
    match name, usual d with
    | some s, some x => usualEntries false rest (putSorted s x sorted)
    | _, _ => none

end

end WorkStealing.Datum

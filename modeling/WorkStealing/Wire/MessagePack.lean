import WorkStealing.Record.Reader

/-!
# MessagePack

The binary form of data. Each value starts with a marker byte that tells its kind and, for a short
one, its size; sizes and numbers are written with the most significant byte first. Writing takes the
shortest form, reading takes every form.
-/

namespace WorkStealing.Wire

/-- The bytes of a number in a width, the most significant one first. -/
def bigEndian : Nat → Nat → List UInt8
  | 0, _ => []
  | width + 1, n => bigEndian width (n / 256) ++ [UInt8.ofNat (n % 256)]

/-- The number that bytes write. -/
def ofBigEndian (bs : List UInt8) : Nat := bs.foldl (fun n b => n * 256 + b.toNat) 0

theorem length_bigEndian (width n : Nat) : (bigEndian width n).length = width := by
  induction width generalizing n with
  | zero => rfl
  | succ w ih => simp [bigEndian, ih]

theorem ofBigEndian_bigEndian (width n : Nat) :
    ofBigEndian (bigEndian width n) = n % Nat.pow 256 width := by
  induction width generalizing n with
  | zero => simp [bigEndian, ofBigEndian, Nat.mod_one]
  | succ w ih =>
    have h := ih (n / 256)
    simp only [ofBigEndian] at h
    have hb : (UInt8.ofNat (n % 256)).toNat = n % 256 := by
      rw [UInt8.toNat_ofNat']
      exact Nat.mod_eq_of_lt (Nat.mod_lt _ (by decide))
    have hpow : Nat.pow 256 (w + 1) = 256 * Nat.pow 256 w := Nat.mul_comm _ _
    rw [bigEndian, ofBigEndian, List.foldl_append, h, List.foldl_cons, List.foldl_nil, hb, hpow,
      Nat.mod_mul, Nat.add_comm, Nat.mul_comm]

namespace MessagePack

/-! ### Writing -/

/-- A natural number in the shortest form. -/
def encodeNat (n : Nat) : List UInt8 :=
  if n < 0x80 then [UInt8.ofNat n]
  else if n < 0x100 then 0xcc :: bigEndian 1 n
  else if n < 0x10000 then 0xcd :: bigEndian 2 n
  else if n < 0x100000000 then 0xce :: bigEndian 4 n
  else 0xcf :: bigEndian 8 n

/-- A negative number in the shortest form, by what it lacks to a power of two. -/
def encodeNegative (i : Int) : List UInt8 :=
  let below (width : Nat) : List UInt8 := bigEndian width (i + Nat.pow 256 width).toNat
  if -32 ≤ i then [UInt8.ofNat (i + 256).toNat]
  else if -128 ≤ i then 0xd0 :: below 1
  else if -0x8000 ≤ i then 0xd1 :: below 2
  else if -0x80000000 ≤ i then 0xd2 :: below 4
  else 0xd3 :: below 8

def encodeInt (i : Int) : List UInt8 := if i < 0 then encodeNegative i else encodeNat i.toNat

/-- A text by its bytes. -/
def encodeText (bs : List UInt8) : List UInt8 :=
  let n := bs.length
  (if n < 32 then [UInt8.ofNat (0xa0 + n)]
    else if n < 0x100 then 0xd9 :: bigEndian 1 n
    else if n < 0x10000 then 0xda :: bigEndian 2 n
    else 0xdb :: bigEndian 4 n) ++ bs

def encodeBytes (bs : List UInt8) : List UInt8 :=
  let n := bs.length
  (if n < 0x100 then 0xc4 :: bigEndian 1 n
    else if n < 0x10000 then 0xc5 :: bigEndian 2 n
    else 0xc6 :: bigEndian 4 n) ++ bs

/-- What stands in front of the elements of a list. -/
def listHead (n : Nat) : List UInt8 :=
  if n < 16 then [UInt8.ofNat (0x90 + n)]
  else if n < 0x10000 then 0xdc :: bigEndian 2 n
  else 0xdd :: bigEndian 4 n

/-- What stands in front of the entries of a table. -/
def tableHead (n : Nat) : List UInt8 :=
  if n < 16 then [UInt8.ofNat (0x80 + n)]
  else if n < 0x10000 then 0xde :: bigEndian 2 n
  else 0xdf :: bigEndian 4 n

mutual

/-- Write a datum. -/
def encode : Datum → List UInt8
  | .null | .unreadable => [0xc0]
  | .bool b => [if b then 0xc3 else 0xc2]
  | .nat n => encodeNat n
  | .int i => encodeInt i
  | .float bits => 0xcb :: bigEndian 8 bits.toNat
  | .text s _ => encodeText s.toUTF8.toList
  | .bytes bs => encodeBytes bs
  | .rawText bs => encodeText bs
  | .list items => listHead items.length ++ encodeItems items
  | .table entries => tableHead entries.length ++ encodeEntries entries

def encodeItems : List Datum → List UInt8
  | [] => []
  | d :: rest => encode d ++ encodeItems rest

def encodeEntries : List (Datum × Datum) → List UInt8
  | [] => []
  | (key, d) :: rest => encode key ++ encode d ++ encodeEntries rest

end

/-! ### Reading -/

/-- The start of a value: a whole value without parts, or the number of its parts. -/
inductive Head where
  | leaf (d : Datum)
  | list (count : Nat)
  | table (count : Nat)

/-- The first bytes of a row, if there are so many. -/
def takeBytes (n : Nat) (bs : List UInt8) : Option (List UInt8 × List UInt8) :=
  let taken := bs.take n
  if taken.length = n then some (taken, bs.drop n) else none

/-- A number of some width. -/
def takeNat (width : Nat) (bs : List UInt8) : Option (Nat × List UInt8) :=
  (takeBytes width bs).map fun r => (ofBigEndian r.1, r.2)

/-- A leaf made from a number of some width. -/
def leafOfNat (width : Nat) (make : Nat → Datum) (bs : List UInt8) :
    Option (Head × List UInt8) :=
  (takeNat width bs).map fun r => (.leaf (make r.1), r.2)

/-- A leaf made from so many bytes. -/
def leafOfBytes (make : List UInt8 → Datum) (n : Nat) (bs : List UInt8) :
    Option (Head × List UInt8) :=
  (takeBytes n bs).map fun r => (.leaf (make r.1), r.2)

/-- A leaf made from bytes whose number is written first. -/
def leafOfSized (width : Nat) (make : List UInt8 → Datum) (bs : List UInt8) :
    Option (Head × List UInt8) :=
  (takeNat width bs).bind fun r => leafOfBytes make r.1 r.2

/-- The signed number that a natural number of some width stands for. -/
def signedDatum (width n : Nat) : Datum :=
  .int (if n < Nat.pow 2 (8 * width - 1) then n else (n : Int) - Nat.pow 256 width)

/-- A text, if the bytes spell one. -/
def textDatum (bs : List UInt8) : Datum :=
  match Datum.textOfBytes? bs with
  | some s => .str s
  | none => .rawText bs

/-- Skip a value of a kind that has no meaning here: its kind byte and so many bytes. -/
def skipOther (n : Nat) : List UInt8 → Option (Head × List UInt8) :=
  leafOfBytes (fun _ => .unreadable) (n + 1)

/-- The start of a value. -/
def head : List UInt8 → Option (Head × List UInt8)
  | [] => none
  | b :: rest =>
    let m := b.toNat
    if m < 0x80 then some (.leaf (.nat m), rest)
    else if m < 0x90 then some (.table (m - 0x80), rest)
    else if m < 0xa0 then some (.list (m - 0x90), rest)
    else if m < 0xc0 then leafOfBytes textDatum (m - 0xa0) rest
    else if 0xe0 ≤ m then some (.leaf (.int (m - 256)), rest)
    else
      match m with
      | 0xc0 => some (.leaf .null, rest)
      | 0xc2 => some (.leaf (.bool false), rest)
      | 0xc3 => some (.leaf (.bool true), rest)
      | 0xc4 => leafOfSized 1 .bytes rest
      | 0xc5 => leafOfSized 2 .bytes rest
      | 0xc6 => leafOfSized 4 .bytes rest
      | 0xc7 => (takeNat 1 rest).bind fun r => skipOther r.1 r.2
      | 0xc8 => (takeNat 2 rest).bind fun r => skipOther r.1 r.2
      | 0xc9 => (takeNat 4 rest).bind fun r => skipOther r.1 r.2
      | 0xca => leafOfNat 4 (fun n => .float (Float32.ofBits (UInt32.ofNat n)).toFloat.toBits) rest
      | 0xcb => leafOfNat 8 (fun n => .float (UInt64.ofNat n)) rest
      | 0xcc => leafOfNat 1 .nat rest
      | 0xcd => leafOfNat 2 .nat rest
      | 0xce => leafOfNat 4 .nat rest
      | 0xcf => leafOfNat 8 .nat rest
      | 0xd0 => leafOfNat 1 (signedDatum 1) rest
      | 0xd1 => leafOfNat 2 (signedDatum 2) rest
      | 0xd2 => leafOfNat 4 (signedDatum 4) rest
      | 0xd3 => leafOfNat 8 (signedDatum 8) rest
      | 0xd4 => skipOther 1 rest
      | 0xd5 => skipOther 2 rest
      | 0xd6 => skipOther 4 rest
      | 0xd7 => skipOther 8 rest
      | 0xd8 => skipOther 16 rest
      | 0xd9 => leafOfSized 1 textDatum rest
      | 0xda => leafOfSized 2 textDatum rest
      | 0xdb => leafOfSized 4 textDatum rest
      | 0xdc => (takeNat 2 rest).map fun r => (.list r.1, r.2)
      | 0xdd => (takeNat 4 rest).map fun r => (.list r.1, r.2)
      | 0xde => (takeNat 2 rest).map fun r => (.table r.1, r.2)
      | 0xdf => (takeNat 4 rest).map fun r => (.table r.1, r.2)
      | _ => none

/-- Read a number of things in a row. -/
def readMany {α : Type} (read : List UInt8 → Option (α × List UInt8)) :
    Nat → List UInt8 → Option (List α × List UInt8)
  | 0, bs => some ([], bs)
  | n + 1, bs =>
    match read bs with
    | none => none
    | some (a, rest) => (readMany read n rest).map fun r => (a :: r.1, r.2)

/-- Read a key and a value. -/
def readPair (read : List UInt8 → Option (Datum × List UInt8)) (bs : List UInt8) :
    Option ((Datum × Datum) × List UInt8) :=
  match read bs with
  | none => none
  | some (key, rest) => (read rest).map fun r => ((key, r.1), r.2)

/-- Read a datum in which lists and tables are nested at most so deeply. -/
def decodeWithin : Nat → List UInt8 → Option (Datum × List UInt8)
  | depth, bs =>
    match head bs, depth with
    | none, _ => none
    | some (.leaf d, rest), _ => some (d, rest)
    | some _, 0 => none
    | some (.list n, rest), inner + 1 =>
      (readMany (decodeWithin inner) n rest).map fun r => (.list r.1, r.2)
    | some (.table n, rest), inner + 1 =>
      (readMany (readPair (decodeWithin inner)) n rest).map fun r => (.table r.1, r.2)

/-- How deeply lists and tables may be nested. -/
def depthLimit : Nat := 1023

/-- Read a datum; bytes after it do not matter. -/
def decode (bs : List UInt8) : Option Datum := (decodeWithin depthLimit bs).map Prod.fst

end MessagePack

end WorkStealing.Wire

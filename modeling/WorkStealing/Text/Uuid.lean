import WorkStealing.Text.Digits

/-!
# Unique identifiers

Sixteen bytes that name one message. The usual text has hyphens after 8, 12, 16 and 20 digits; it may
stand in braces or after `urn:uuid:`, or have no hyphens.
-/

namespace WorkStealing

/-- An identifier of sixteen bytes. -/
structure Uuid where
  bytes : List UInt8
  length_eq : bytes.length = 16
deriving DecidableEq

namespace Uuid

/-- The identifier of zeros. -/
def nil : Uuid := { bytes := List.replicate 16 0, length_eq := by decide }

instance : Inhabited Uuid := ⟨nil⟩

instance : Repr Uuid := ⟨fun u _ => Text.hexText u.bytes⟩

/-- The identifier of some bytes, if they are sixteen. -/
def ofBytes? (bs : List UInt8) : Option Uuid :=
  if h : bs.length = 16 then some { bytes := bs, length_eq := h } else none

/-- The identifier whose bytes write a number; only the last 128 bits count. -/
def ofNat (n : Nat) : Uuid :=
  { bytes := (List.range 16).map fun i => UInt8.ofNat (n / Nat.pow 256 (15 - i) % 256)
    length_eq := by simp }

/-- The usual text. -/
def text (u : Uuid) : String :=
  let cs := u.bytes.flatMap Text.hexPair
  String.ofList
    (cs.take 8 ++ '-' :: (cs.drop 8).take 4 ++ '-' :: (cs.drop 12).take 4 ++ '-' :: (cs.drop 16).take 4
      ++ '-' :: cs.drop 20)

/-- Digits with hyphens in the usual places. -/
def parseHyphenated? (cs : List Char) : Option Uuid :=
  if [8, 13, 18, 23].all (fun i => cs[i]? = some '-') then
    (Text.parseHexPairs?
      (cs.take 8 ++ (cs.drop 9).take 4 ++ (cs.drop 14).take 4 ++ (cs.drop 19).take 4
        ++ cs.drop 24)).bind ofBytes?
  else none

def parse? (s : String) : Option Uuid :=
  let cs := s.toList
  let urn := "urn:uuid:".toList
  if s.utf8ByteSize ≠ cs.length then none
  else if cs.length = 32 then (Text.parseHexPairs? cs).bind ofBytes?
  else if cs.length = 36 then parseHyphenated? cs
  else if cs.length = 38 ∧ cs.head? = some '\x7b' ∧ cs.getLast? = some '\x7d' then
    parseHyphenated? (cs.drop 1).dropLast
  else if cs.length = 45 ∧ urn.isPrefixOf cs then parseHyphenated? (cs.drop 9)
  else none

end Uuid

end WorkStealing

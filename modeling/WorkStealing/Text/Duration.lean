import WorkStealing.Text.Digits

/-!
# Durations as text

A duration is written in the largest of four units that does not exceed it, with as many decimals as
it needs.
-/

namespace WorkStealing.Text

/-- A fraction of a number of places, without the zeros at its end; nothing if it is 0. -/
def decimals (places fraction : Nat) : String :=
  if fraction = 0 then ""
  else
    let digits := (padded places fraction).toList
    "." ++ String.ofList (digits.reverse.dropWhile (· = '0')).reverse

/-- A duration in nanoseconds, for a person to read. -/
def durationText (nanos : Nat) : String :=
  let inUnit (places : Nat) (unit : String) : String :=
    Nat.repr (nanos / Nat.pow 10 places) ++ decimals places (nanos % Nat.pow 10 places) ++ unit
  if 1000000000 ≤ nanos then inUnit 9 "s"
  else if 1000000 ≤ nanos then inUnit 6 "ms"
  else if 1000 ≤ nanos then inUnit 3 "µs"
  else inUnit 0 "ns"

example : durationText 1500000000 = "1.5s" := by decide +kernel

example : durationText 1001 = "1.001µs" := by decide +kernel

end WorkStealing.Text

/-!
# Floating-point numbers as text

Writing: the fewest decimal digits that read back as the same 64-bit floating-point number, and of
those the nearest ones. The number is taken apart into `m * 2 ^ q`; every real number nearer to it
than to its neighbors reads back, so the digits are sought in that interval, in exact arithmetic.

Reading: the digits make a 64-bit integer and a power of ten, which are then multiplied or divided in
floating-point arithmetic.
-/

namespace WorkStealing.Text

/-- A positive rational interval around a value, all over one denominator. -/
structure RoundingInterval where
  low : Nat
  value : Nat
  high : Nat
  denominator : Nat
  /-- Whether the ends read back too. -/
  closed : Bool
deriving Repr

namespace RoundingInterval

/-- The interval of a finite number that is not 0. The gap below a power of two is half as wide. -/
def ofBits (bits : UInt64) : RoundingInterval :=
  let fraction := bits.toNat % Nat.pow 2 52
  let biased := bits.toNat / Nat.pow 2 52 % Nat.pow 2 11
  let m := if biased = 0 then fraction else fraction + Nat.pow 2 52
  let shift := max biased 1
  let scale := Nat.pow 2 (shift - 1077)
  let below := if fraction = 0 ∧ 1 < biased then 1 else 2
  { low := (4 * m - below) * scale
    value := 4 * m * scale
    high := (4 * m + 2) * scale
    denominator := Nat.pow 2 (1077 - shift)
    closed := m % 2 = 0 }

/-- Whether `n / d` lies in the interval. -/
def contains (r : RoundingInterval) (n d : Nat) : Bool :=
  let below := r.low * d
  let above := r.high * d
  let point := n * r.denominator
  if r.closed then below ≤ point && point ≤ above else below < point && point < above

/-- The exponent `e` with `10 ^ e ≤ value < 10 ^ (e + 1)`. -/
def decimalExponent (r : RoundingInterval) : Int :=
  if r.denominator ≤ r.value then
    ((Nat.toDigits 10 (r.value / r.denominator)).length : Int) - 1
  else -((Nat.toDigits 10 ((r.denominator - 1) / r.value)).length : Int)

/-- The best point of the grid of multiples of `10 ^ e`, if one reads back: of the two points around
the value the nearer one, and of two equally near ones the even one. -/
def onGrid (r : RoundingInterval) (e : Int) : Option Nat :=
  let up := Nat.pow 10 (-e).toNat
  let down := Nat.pow 10 e.toNat
  let n := r.value * up
  let d := r.denominator * down
  let floor := n / d
  let fits (k : Nat) : Bool := r.contains (k * down) up
  let rest := n % d
  let nearer := if 2 * rest < d ∨ (2 * rest = d ∧ floor % 2 = 0) then floor else floor + 1
  let farther := if nearer = floor then floor + 1 else floor
  if fits nearer then some nearer else if fits farther then some farther else none

/-- The shortest digits and the power of ten that they count. -/
def shortest (r : RoundingInterval) : Nat × Int :=
  let e := r.decimalExponent
  ((List.range 18).findSome? fun (n : Nat) =>
    let grid := e + 1 - Int.ofNat n
    (r.onGrid grid).map fun k => (k, grid)).getD (0, 0)

end RoundingInterval

/-- A decimal without zeros at its end. -/
def trimZeros : Nat → Nat → Int → Nat × Int
  | 0, n, e => (n, e)
  | fuel + 1, n, e => if n % 10 = 0 ∧ n ≠ 0 then trimZeros fuel (n / 10) (e + 1) else (n, e)

/-- How decimals are laid out: positional from `10 ^ -5` to below `10 ^ 16`, with a digit on each
side of the point, and with a bare exponent elsewhere. -/
def layOut (digits : String) (e : Int) : String :=
  let count : Int := digits.length
  let point := count + e
  let cs := digits.toList
  if 0 ≤ e ∧ point ≤ 16 then digits ++ String.ofList (List.replicate e.toNat '0') ++ ".0"
  else if 0 < point ∧ point ≤ 16 then
    String.ofList (cs.take point.toNat) ++ "." ++ String.ofList (cs.drop point.toNat)
  else if -5 < point ∧ point ≤ 0 then
    "0." ++ String.ofList (List.replicate (-point).toNat '0') ++ digits
  else if count = 1 then digits ++ "e" ++ toString (point - 1)
  else String.ofList (cs.take 1) ++ "." ++ String.ofList (cs.drop 1) ++ "e" ++ toString (point - 1)

/-- The text of a finite floating-point number; there is none for the others. -/
def binary64Text? (bits : UInt64) : Option String :=
  if bits.toNat / Nat.pow 2 52 % Nat.pow 2 11 = 2047 then none
  else
    let sign := if 0x8000000000000000 ≤ bits.toNat then "-" else ""
    if bits.toNat % 0x8000000000000000 = 0 then some (sign ++ "0.0")
    else
      let (n, e) := (RoundingInterval.ofBits bits).shortest
      let (n, e) := trimZeros 20 n e
      some (sign ++ layOut (Nat.repr n) e)

/-- A power of ten that a floating-point number can hold. -/
def powerOfTen (n : Nat) : Float := Float.ofScientific 1 false n

/-- Divide by powers of ten until the exponent is in range. -/
def scaleDown : Nat → Float → Nat → Float
  | 0, f, _ => f
  | fuel + 1, f, n =>
    if n ≤ 308 then f / powerOfTen n
    else if f == 0 then f
    else scaleDown fuel (f / powerOfTen 308) (n - 308)

/-- The floating-point number that digits and a power of ten come to; none if it is too large. -/
def binary64OfDecimal (negative : Bool) (significand : UInt64) (e : Int) : Option UInt64 :=
  let f := significand.toFloat
  let signed (g : Float) : UInt64 := (if negative then -g else g).toBits
  if 0 ≤ e then
    if e.toNat ≤ 308 then
      let g := f * powerOfTen e.toNat
      if g.isInf then none else some (signed g)
    else if f == 0 then some (signed f)
    else none
  else some (signed (scaleDown 5 f (-e).toNat))

end WorkStealing.Text

import WorkStealing.Text.Blank
import WorkStealing.Text.Digits

/-!
# Points in time

A point in time is a day of the calendar, a second of the day and a fraction in nanoseconds. A
fraction of a second or more makes the second a leap second. Any second can hold one, but written
down only the last second of a minute can: it is the second 60 then, while every other leap second
is written as the second after it.

Writing gives the internet form of universal time. Reading is lenient: blanks may stand between the
parts, numbers need no leading zeros, and any offset is taken off.
-/

namespace WorkStealing

/-- A day of the calendar, by year, month and day. -/
structure CalendarDay where
  year : Int
  month : Nat
  day : Nat
deriving DecidableEq, Repr, Inhabited

namespace CalendarDay

def isLeapYear (year : Int) : Bool := year % 4 = 0 && (year % 100 ≠ 0 || year % 400 = 0)

def daysIn (year : Int) (month : Nat) : Nat :=
  match month with
  | 2 => if isLeapYear year then 29 else 28
  | 4 | 6 | 9 | 11 => 30
  | _ => 31

/-- The first and the last year that can be named. -/
def firstYear : Int := -262143

def lastYear : Int := 262142

/-- Whether the parts name a day of the calendar. -/
def isValid (d : CalendarDay) : Bool :=
  firstYear ≤ d.year && d.year ≤ lastYear && 1 ≤ d.month && d.month ≤ 12 && 1 ≤ d.day
    && d.day ≤ daysIn d.year d.month

def next (d : CalendarDay) : CalendarDay :=
  if d.day < daysIn d.year d.month then { d with day := d.day + 1 }
  else if d.month < 12 then { d with month := d.month + 1, day := 1 }
  else { year := d.year + 1, month := 1, day := 1 }

def previous (d : CalendarDay) : CalendarDay :=
  if 1 < d.day then { d with day := d.day - 1 }
  else if 1 < d.month then
    { d with month := d.month - 1, day := daysIn d.year (d.month - 1) }
  else { year := d.year - 1, month := 12, day := 31 }

end CalendarDay

/-- A point in time. -/
structure Timestamp where
  date : CalendarDay
  /-- Second of the day. -/
  second : Nat
  /-- Nanoseconds; a billion and more in a leap second. -/
  nanos : Nat
deriving DecidableEq, Repr, Inhabited

namespace Timestamp

/-- The start of the year 1970. -/
def epoch : Timestamp :=
  { date := { year := 1970, month := 1, day := 1 }, second := 0, nanos := 0 }

/-- Whether a timestamp can have these parts: a day of the calendar, a second of a day and less than
two seconds of nanoseconds. A leap second may be any second, not only the last one of a minute. -/
def isValid (t : Timestamp) : Bool :=
  t.date.isValid && t.second < 86400 && t.nanos < 2000000000

/-- A year: four digits where they suffice, else with its sign. -/
def yearText (year : Int) : String :=
  if 0 ≤ year ∧ year ≤ 9999 then Text.padded 4 year.toNat
  else (if year < 0 then "-" else "+") ++ Text.padded 4 year.natAbs

/-- A fraction of a second in 0, 3, 6 or 9 places. -/
def fractionText (nanos : Nat) : String :=
  if nanos = 0 then ""
  else if nanos % 1000000 = 0 then "." ++ Text.padded 3 (nanos / 1000000)
  else if nanos % 1000 = 0 then "." ++ Text.padded 6 (nanos / 1000)
  else "." ++ Text.padded 9 nanos

/-- The written form. A leap second is one second later, so the last one of a minute is the
second 60. -/
def text (t : Timestamp) : String :=
  let leap := if 1000000000 ≤ t.nanos then 1 else 0
  yearText t.date.year ++ "-" ++ Text.padded 2 t.date.month ++ "-" ++ Text.padded 2 t.date.day ++ "T"
    ++ Text.padded 2 (t.second / 3600) ++ ":" ++ Text.padded 2 (t.second / 60 % 60) ++ ":"
    ++ Text.padded 2 (t.second % 60 + leap) ++ fractionText (t.nanos - leap * 1000000000) ++ "Z"

/-- A number of at most so many digits, after blanks. -/
def shortNumber (width : Nat) (cs : List Char) : Option (Nat × List Char) :=
  let cs := Text.skipBlanks cs
  let digits := (cs.take width).takeWhile Text.isDecimal
  if digits.isEmpty then none else some (Text.ofDecimal digits, cs.drop digits.length)

/-- A year: at most four digits, or any number of them after a sign. -/
def year (cs : List Char) : Option (Int × List Char) :=
  match Text.skipBlanks cs with
  | '-' :: rest => (allDigits rest).map fun r => (-(r.1 : Int), r.2)
  | '+' :: rest => (allDigits rest).map fun r => ((r.1 : Int), r.2)
  | rest => (shortNumber 4 rest).map fun r => ((r.1 : Int), r.2)
where
  /-- The number that all following digits write. -/
  allDigits (cs : List Char) : Option (Nat × List Char) :=
    let digits := cs.takeWhile Text.isDecimal
    if digits.isEmpty then none else some (Text.ofDecimal digits, cs.drop digits.length)

/-- Skip blanks and then a mark. -/
def mark (c : Char) (cs : List Char) : Option (List Char) :=
  match Text.skipBlanks cs with
  | d :: rest => if d = c then some rest else none
  | [] => none

/-- A fraction of a second in nanoseconds, if there is one; digits after the ninth are dropped. -/
def fraction : List Char → Option (Nat × List Char)
  | '.' :: rest =>
    let digits := rest.takeWhile Text.isDecimal
    let kept := digits.take 9
    if digits.isEmpty then none
    else some (Text.ofDecimal kept * Nat.pow 10 (9 - kept.length), rest.drop digits.length)
  | cs => some (0, cs)

/-- Two digits, the first of them below a bound. -/
def twoDigits (bound : Nat) : List Char → Option (Nat × List Char)
  | a :: b :: rest =>
    match Text.decimalValue? a, Text.decimalValue? b with
    | some x, some y => if x < bound then some (x * 10 + y, rest) else none
    | _, _ => none
  | _ => none

/-- An offset after its sign, in minutes: hours, then minutes after colons and blanks. -/
def offsetMinutes (cs : List Char) : Option (Nat × List Char) :=
  match twoDigits 10 cs with
  | none => none
  | some (hours, rest) =>
    (twoDigits 6 (rest.dropWhile fun c => c = ':' || Text.isBlank c)).map fun r =>
      (hours * 60 + r.1, r.2)

/-- An offset from universal time in minutes. -/
def offset (cs : List Char) : Option (Int × List Char) :=
  match cs with
  | a :: b :: c :: rest =>
    if (a = 'U' ∨ a = 'u') ∧ (b = 'T' ∨ b = 't') ∧ (c = 'C' ∨ c = 'c') then some (0, rest)
    else signed cs
  | _ => signed cs
where
  /-- An offset that is not named. -/
  signed : List Char → Option (Int × List Char)
    | 'Z' :: rest | 'z' :: rest => some (0, rest)
    | '+' :: rest => (offsetMinutes rest).map fun r => ((r.1 : Int), r.2)
    | '-' :: rest | '\u2212' :: rest => (offsetMinutes rest).map fun r => (-(r.1 : Int), r.2)
    | _ => none

/-- The point in time whose local time, ahead of universal time by some minutes, is given. -/
def atOffset (time : Timestamp) (minutes : Int) : Timestamp :=
  let s := (time.second : Int) - minutes * 60
  if s < 0 then { time with date := time.date.previous, second := (s + 86400).toNat }
  else if 86400 ≤ s then { time with date := time.date.next, second := (s - 86400).toNat }
  else { time with second := s.toNat }

/-- The local time and the offset of a text. -/
def readLocal (cs : List Char) : Option (Timestamp × Int × List Char) := do
  let (year, cs) ← year cs
  let (month, cs) ← shortNumber 2 (← mark '-' cs)
  let (day, cs) ← shortNumber 2 (← mark '-' cs)
  let cs ←
    match cs with
    | c :: rest => if c = 'T' ∨ c = 't' ∨ c = ' ' then some rest else none
    | [] => none
  let (hour, cs) ← shortNumber 2 cs
  let (minute, cs) ← shortNumber 2 (← mark ':' cs)
  let (second, cs) ← shortNumber 2 (← mark ':' cs)
  let (nanos, cs) ← fraction cs
  let (minutes, cs) ← offset (Text.skipBlanks cs)
  if hour < 24 ∧ minute < 60 ∧ second ≤ 60 ∧ minutes.natAbs < 1440 then
    let leap := if second = 60 then 1 else 0
    return (
      { date := { year := year, month := month, day := day }
        second := hour * 3600 + minute * 60 + (second - leap)
        nanos := nanos + leap * 1000000000 },
      minutes, cs)
  else none

/-- Read a point in time. -/
def parse? (s : String) : Option Timestamp :=
  match readLocal s.toList with
  | some (time, minutes, rest) =>
    let t := time.atOffset minutes
    if time.date.isValid && t.date.isValid && (Text.skipBlanks rest).isEmpty then some t else none
  | none => none

end Timestamp

end WorkStealing

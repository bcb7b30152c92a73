import WorkStealing.Record.Datum
import WorkStealing.Text.Digits

/-!
# TOML: values without parts

Texts, numbers, switches and dates. Each reader takes the characters of a document and returns a
value and the characters after it. No record of the library has a floating-point part, so numbers of
that kind are checked and become unreadable; a date and time is a table of no known part.
-/

namespace WorkStealing.Text.Toml

/-- A reader of characters. -/
abbrev Reader (α : Type) := List Char → Option (α × List Char)

def isBlank (c : Char) : Bool := c = ' ' || c = '\t'

/-- Characters that may stand in comments and one-line texts: no control characters but the tab. -/
def isPrintable (c : Char) : Bool := c = '\t' || (0x20 ≤ c.toNat && c.toNat ≠ 0x7F)

/-- Skip a line end, if there is one. -/
def lineEnd? : List Char → Option (List Char)
  | '\n' :: rest => some rest
  | '\r' :: '\n' :: rest => some rest
  | _ => none

/-- Skip blanks and line ends. -/
def skipBlankLines : List Char → List Char
  | ' ' :: rest => skipBlankLines rest
  | '\t' :: rest => skipBlankLines rest
  | '\n' :: rest => skipBlankLines rest
  | '\r' :: '\n' :: rest => skipBlankLines rest
  | cs => cs

/-- The character with a hexadecimal number; surrogates are no characters. -/
def scalar? (digits : List Char) : Option Char :=
  (digits.mapM hexValue?).bind fun ds =>
    let n := ofDigits 16 ds
    if n < 0xD800 ∨ (0xE000 ≤ n ∧ n < 0x110000) then some (Char.ofNat n) else none

/-- The character that a letter after a backslash stands for. -/
def escaped? : Char → Option Char
  | 'b' => some '\x08'
  | 't' => some '\t'
  | 'n' => some '\n'
  | 'f' => some '\x0c'
  | 'r' => some '\r'
  | '"' => some '"'
  | '\\' => some '\\'
  | _ => none

/-- What follows a backslash: the character it stands for. -/
def escape : Reader Char
  | 'u' :: rest =>
    if rest.length < 4 then none else (scalar? (rest.take 4)).map fun c => (c, rest.drop 4)
  | 'U' :: rest =>
    if rest.length < 8 then none else (scalar? (rest.take 8)).map fun c => (c, rest.drop 8)
  | c :: rest => (escaped? c).map fun e => (e, rest)
  | [] => none

/-- A one-line text after its opening quote. The fuel bounds its length. -/
def basicText (soFar : List Char) : Nat → Reader String
  | 0, _ => none
  | _, [] => none
  | fuel + 1, c :: rest =>
    if c = '"' then some (String.ofList soFar.reverse, rest)
    else if c = '\\' then
      (escape rest).bind fun r => basicText (r.1 :: soFar) fuel r.2
    else if isPrintable c then basicText (c :: soFar) fuel rest
    else none

/-- A one-line text without escapes, after its opening quote. -/
def literalText (soFar : List Char) : Reader String
  | [] => none
  | c :: rest =>
    if c = '\'' then some (String.ofList soFar.reverse, rest)
    else if isPrintable c then literalText (c :: soFar) rest
    else none

/-- Skip the line end right after an opening delimiter. -/
def afterOpening (cs : List Char) : List Char := (lineEnd? cs).getD cs

/-- A row of quotes in a text of several lines: the quotes that belong to the text, and what follows
if the row ends the text. A row of three or more ends it; at most two of its quotes belong to it. -/
def quoteRow (quote : Char) (cs : List Char) : List Char × Option (List Char) :=
  let row := (cs.takeWhile (· = quote)).length
  if row < 3 then (List.replicate row quote, none)
  else (List.replicate (min (row - 3) 2) quote, some (cs.drop (min row 5)))

/-- A text of several lines after its opening delimiter; `escapes` tells whether backslashes count. -/
def longText (quote : Char) (escapes : Bool) (soFar : List Char) : Nat → Reader String
  | 0, _ => none
  | _, [] => none
  | fuel + 1, c :: rest =>
    if c = quote then
      match quoteRow quote (c :: rest) with
      | (quotes, some after) => some (String.ofList (quotes ++ soFar).reverse, after)
      | (quotes, none) =>
        longText quote escapes (quotes ++ soFar) fuel ((c :: rest).drop quotes.length)
    else
      match lineEnd? (c :: rest) with
      | some after => longText quote escapes ('\n' :: soFar) fuel after
      | none =>
        if escapes && c = '\\' then
          if (lineEnd? (rest.dropWhile isBlank)).isSome then
            longText quote escapes soFar fuel (skipBlankLines rest)
          else (escape rest).bind fun r => longText quote escapes (r.1 :: soFar) fuel r.2
        else if isPrintable c then longText quote escapes (c :: soFar) fuel rest
        else none

/-- A quoted text of any of the four kinds. -/
def quotedText (fuel : Nat) : Reader String
  | '"' :: '"' :: '"' :: rest => longText '"' true [] fuel (afterOpening rest)
  | '"' :: rest => basicText [] fuel rest
  | '\'' :: '\'' :: '\'' :: rest => longText '\'' false [] fuel (afterOpening rest)
  | '\'' :: rest => literalText [] rest
  | _ => none

/-- Digits in which single underscores may stand between two digits. -/
def digitRun (value? : Char → Option Nat) : Reader (List Nat)
  | c :: '_' :: d :: rest =>
    match value? c, value? d with
    | some x, some _ =>
      match digitRun value? (d :: rest) with
      | some (ds, after) => some (x :: ds, after)
      | none => none
    | some x, none => some ([x], '_' :: d :: rest)
    | none, _ => none
  | c :: rest =>
    match value? c with
    | some x =>
      match digitRun value? rest with
      | some (ds, after) => some (x :: ds, after)
      | none => some ([x], rest)
    | none => none
  | [] => none

/-- The value of a digit below a base. -/
def digitBelow (base : Nat) (c : Char) : Option Nat := (hexValue? c).filter (· < base)

/-- An integer of 64 bits with sign. -/
def wholeDatum (negative : Bool) (n : Nat) : Option Datum :=
  if negative then if n ≤ 0x8000000000000000 then some (if n = 0 then .nat 0 else .int (-(n : Int))) else none
  else if n < 0x8000000000000000 then some (.nat n)
  else none

/-- Whether `n * 10 ^ e` is too large for a floating-point number. -/
def overflows (digits : List Nat) (e : Int) : Bool :=
  let n := ofDigits 10 digits
  if n = 0 then false
  else if 400 < e then true
  else if e < -(digits.length : Int) then false
  else (Nat.pow 2 54 - 1) * Nat.pow 2 970 * Nat.pow 10 (-e).toNat ≤ n * Nat.pow 10 e.toNat

/-- A fraction, if there is one; the outer `none` marks a bad one. -/
def fraction : Reader (Option (List Nat))
  | '.' :: rest => (digitRun decimalValue? rest).map fun r => (some r.1, r.2)
  | cs => some (none, cs)

/-- An exponent, if there is one; the outer `none` marks a bad one. -/
def exponent : Reader (Option Int)
  | c :: rest =>
    if c = 'e' ∨ c = 'E' then
      let (negative, digits) : Bool × List Char :=
        match rest with
        | '-' :: ds => (true, ds)
        | '+' :: ds => (false, ds)
        | ds => (false, ds)
      (digitRun decimalValue? digits).map fun r =>
        let n : Int := ofDigits 10 r.1
        (some (if negative then -n else n), r.2)
    else some (none, c :: rest)
  | [] => some (none, [])

/-- A decimal number after its sign. Only 0 itself may start with the digit 0. -/
def decimalNumber (negative : Bool) (cs : List Char) : Option (Datum × List Char) :=
  match digitRun decimalValue? cs with
  | none => none
  | some (0 :: _ :: _, _) => none
  | some (whole, rest) =>
    match fraction rest with
    | none => none
    | some (part, rest') =>
      match exponent rest' with
      | none => none
      | some (power, after) =>
        match part, power with
        | none, none => (wholeDatum negative (ofDigits 10 whole)).map fun d => (d, after)
        | _, _ =>
          let digits := whole ++ part.getD []
          let e := power.getD 0 - (part.getD []).length
          if !negative && overflows digits e then none else some (.unreadable, after)

/-- A number after its sign. -/
def signedNumber (negative : Bool) : Reader Datum
  | 'i' :: 'n' :: 'f' :: rest => some (.unreadable, rest)
  | 'n' :: 'a' :: 'n' :: rest => some (.unreadable, rest)
  | cs => decimalNumber negative cs

/-- A number in another base, after its two leading characters. -/
def basedNumber (base : Nat) (cs : List Char) : Option (Datum × List Char) :=
  (digitRun (digitBelow base) cs).bind fun r =>
    (wholeDatum false (ofDigits base r.1)).map fun d => (d, r.2)

def number : Reader Datum
  | '0' :: 'x' :: rest => basedNumber 16 rest
  | '0' :: 'o' :: rest => basedNumber 8 rest
  | '0' :: 'b' :: rest => basedNumber 2 rest
  | '+' :: rest => signedNumber false rest
  | '-' :: rest => signedNumber true rest
  | cs => signedNumber false cs

/-- A number of exactly so many digits, within bounds. -/
def fixedNumber (width low high : Nat) (cs : List Char) : Option (Nat × List Char) :=
  let digits := cs.take width
  if digits.length = width && digits.all isDecimal then
    let n := ofDecimal digits
    if low ≤ n ∧ n ≤ high then some (n, cs.drop width) else none
  else none

def skipChar (c : Char) : List Char → Option (List Char)
  | d :: rest => if d = c then some rest else none
  | [] => none

def isLeapYear (year : Nat) : Bool := year % 4 = 0 && (year % 100 ≠ 0 || year % 400 = 0)

def daysIn (year month : Nat) : Nat :=
  if month = 2 then if isLeapYear year then 29 else 28
  else if [4, 6, 9, 11].contains month then 30
  else 31

/-- Skip a date of the calendar. -/
def date (cs : List Char) : Option (List Char) := do
  let (year, cs) ← fixedNumber 4 0 9999 cs
  let (month, cs) ← fixedNumber 2 1 12 (← skipChar '-' cs)
  let (_, cs) ← fixedNumber 2 1 (daysIn year month) (← skipChar '-' cs)
  return cs

/-- Skip a time of day, with seconds and perhaps a fraction of them. -/
def time (cs : List Char) : Option (List Char) := do
  let (_, cs) ← fixedNumber 2 0 23 cs
  let (_, cs) ← fixedNumber 2 0 59 (← skipChar ':' cs)
  let (_, cs) ← fixedNumber 2 0 60 (← skipChar ':' cs)
  match cs with
  | '.' :: d :: rest => if isDecimal d then return rest.dropWhile isDecimal else return cs
  | _ => return cs

/-- Skip an offset from universal time, if there is one. -/
def offset : List Char → Option (List Char)
  | c :: rest =>
    if c = 'Z' ∨ c = 'z' then some rest
    else if c = '+' ∨ c = '-' then do
      let (_, cs) ← fixedNumber 2 0 23 rest
      let (_, cs) ← fixedNumber 2 0 59 (← skipChar ':' cs)
      return cs
    else some (c :: rest)
  | [] => some []

/-- Skip the time after a date, if there is one. A blank may also end the date. -/
def timeAfterDate : List Char → Option (List Char)
  | c :: rest =>
    if c = 'T' ∨ c = 't' then (time rest).bind offset
    else if c = ' ' ∧ (rest.head?.map isDecimal).getD false then (time rest).bind offset
    else some (c :: rest)
  | [] => some []

/-- Whether digits of a row, and then a mark, start a text. -/
def startsWith (width : Nat) (mark : Char) (cs : List Char) : Bool :=
  (cs.take width).length = width && (cs.take width).all isDecimal && (cs.drop width).head? = some mark

/-- A date, a time or a number. -/
def dateOrNumber (cs : List Char) : Option (Datum × List Char) :=
  if startsWith 4 '-' cs then ((date cs).bind timeAfterDate).map fun rest => (.table [], rest)
  else if startsWith 2 ':' cs then (time cs).map fun rest => (.table [], rest)
  else number cs

/-- A value without parts. -/
def scalar (fuel : Nat) : Reader Datum
  | 't' :: 'r' :: 'u' :: 'e' :: rest => some (.bool true, rest)
  | 'f' :: 'a' :: 'l' :: 's' :: 'e' :: rest => some (.bool false, rest)
  | '"' :: rest => (quotedText fuel ('"' :: rest)).map fun r => (.str r.1, r.2)
  | '\'' :: rest => (quotedText fuel ('\'' :: rest)).map fun r => (.str r.1, r.2)
  | cs => dateOrNumber cs

end WorkStealing.Text.Toml

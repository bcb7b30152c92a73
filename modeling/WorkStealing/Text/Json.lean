import WorkStealing.Record.Datum
import WorkStealing.Text.Binary64
import WorkStealing.Text.Digits

/-!
# JSON

Reading takes a text to tokens and builds a datum from them on a stack, so that nesting may be as
deep as the text is long. What is well formed but cannot be read (an unpaired surrogate, a number
out of range) becomes an unreadable leaf; it does harm only where a record has a use for it.

Writing is the other way round, in one line.
-/

namespace WorkStealing.Text.Json

/-- The pieces of a text. -/
inductive Token where
  | openList
  | closeList
  | openTable
  | closeTable
  | comma
  | colon
  /-- A text, which may stand as a key. -/
  | text (d : Datum)
  /-- Any other value without parts. -/
  | leaf (d : Datum)
deriving Repr, Inhabited

/-- What is known of a quoted text up to some character. -/
structure Quoted where
  /-- The characters so far, the last one first. -/
  chars : List Char := []
  /-- A high surrogate that waits for a low one. -/
  lead : Option Nat := none
  plain : Bool := true
  readable : Bool := true
  /-- Whether a control character stands there as it is. -/
  control : Bool := false
deriving Repr, Inhabited

namespace Quoted

/-- Note a character; a surrogate that still waits stays alone. -/
def add (q : Quoted) (c : Char) : Quoted :=
  { q with chars := c :: q.chars, lead := none, readable := q.readable && q.lead.isNone }

/-- Note a character that stands as it is. -/
def addPlain (q : Quoted) (c : Char) : Quoted :=
  { q.add c with control := q.control || c.toNat < 0x20 }

/-- Note a character that stands for itself after a backslash. -/
def addEscaped (q : Quoted) (c : Char) : Quoted := { q.add c with plain := false }

/-- Note a 16-bit unit; two surrogates make one character. -/
def addUnit (q : Quoted) (n : Nat) : Quoted :=
  let q := { q with plain := false }
  match q.lead with
  | some high =>
    if 0xDC00 ≤ n ∧ n < 0xE000 then
      { q with
        chars := Char.ofNat (0x10000 + (high - 0xD800) * 0x400 + (n - 0xDC00)) :: q.chars
        lead := none }
    else { q with lead := none, readable := false }
  | none =>
    if 0xD800 ≤ n ∧ n < 0xDC00 then { q with lead := some n }
    else if 0xDC00 ≤ n ∧ n < 0xE000 then { q with readable := false }
    else q.add (Char.ofNat n)

/-- The datum of a whole quoted text. A control character is allowed only in plain bytes. -/
def close (q : Quoted) : Option Datum :=
  let s := String.ofList q.chars.reverse
  if q.control then if q.plain then some (.rawText s.toUTF8.toList) else none
  else if q.readable && q.lead.isNone then some (.text s q.plain)
  else some .unreadable

end Quoted

/-- The character that a letter after a backslash stands for. -/
def escaped? : Char → Option Char
  | '"' => some '"'
  | '\\' => some '\\'
  | '/' => some '/'
  | 'b' => some '\x08'
  | 'f' => some '\x0c'
  | 'n' => some '\n'
  | 'r' => some '\r'
  | 't' => some '\t'
  | _ => none

/-- A quoted text after its opening quote, and what follows it. -/
def quoted (q : Quoted) : List Char → Option (Datum × List Char)
  | [] => none
  | '"' :: rest => q.close.map fun d => (d, rest)
  | '\\' :: 'u' :: a :: b :: c :: d :: rest =>
    match hexValue? a, hexValue? b, hexValue? c, hexValue? d with
    | some w, some x, some y, some z => quoted (q.addUnit (ofDigits 16 [w, x, y, z])) rest
    | _, _, _, _ => none
  | '\\' :: c :: rest =>
    match escaped? c with
    | some e => quoted (q.addEscaped e) rest
    | none => none
  | c :: rest => quoted (q.addPlain c) rest

/-- Digits of a number that are worth keeping in 64 bits, and the power of ten that they count. -/
structure Significand where
  value : Nat := 0
  exponent : Int := 0
  /-- Whether a digit did not fit. -/
  full : Bool := false
deriving Repr, Inhabited

namespace Significand

def fits (s : Significand) (d : Nat) : Bool := s.value * 10 + d < UInt64.size

/-- A digit before the point; one that does not fit, and all after it, only count a power of ten. -/
def addWhole (s : Significand) (d : Nat) : Significand :=
  if s.full || !s.fits d then { s with exponent := s.exponent + 1, full := true }
  else { s with value := s.value * 10 + d }

/-- A digit after the point; one that does not fit, and all after it, are dropped. -/
def addFraction (s : Significand) (d : Nat) : Significand :=
  if s.full || !s.fits d then { s with full := true }
  else { s with value := s.value * 10 + d, exponent := s.exponent - 1 }

end Significand

def digitValues (cs : List Char) : List Nat := cs.filterMap decimalValue?

/-- A floating-point number from a significand and a written exponent. -/
def floatDatum (negative : Bool) (s : Significand) (exponent : Int) : Datum :=
  let bits? :=
    if 2147483647 < exponent.natAbs then
      if 0 ≤ exponent ∧ s.value ≠ 0 then none else binary64OfDecimal negative 0 0
    else binary64OfDecimal negative (UInt64.ofNat s.value) (s.exponent + exponent)
  match bits? with
  | some bits => .float bits
  | none => .unreadable

/-- A number without point and exponent. Zero with a minus sign, and what does not fit 64 bits, are
floating-point numbers. -/
def wholeDatum (negative : Bool) (s : Significand) : Datum :=
  if s.full then floatDatum negative s 0
  else if negative then
    if s.value = 0 ∨ 0x8000000000000000 < s.value then floatDatum true s 0 else .int (-(s.value : Int))
  else .nat s.value

/-- The exponent part of a number, if there is one; the outer `none` marks a bad one. -/
def exponentPart : List Char → Option (Option Int × List Char)
  | c :: rest =>
    if c = 'e' ∨ c = 'E' then
      let (negative, digits) : Bool × List Char :=
        match rest with
        | '-' :: ds => (true, ds)
        | '+' :: ds => (false, ds)
        | ds => (false, ds)
      let written := digits.takeWhile isDecimal
      if written.isEmpty then none
      else
        let n : Int := ofDecimal written
        some (some (if negative then -n else n), digits.dropWhile isDecimal)
    else some (none, c :: rest)
  | [] => some (none, [])

/-- The digits after a point, if there is one; the outer `none` marks a point without digits. -/
def fractionPart : List Char → Option (Option (List Nat) × List Char)
  | '.' :: rest =>
    let written := rest.takeWhile isDecimal
    if written.isEmpty then none
    else some (some (digitValues written), rest.dropWhile isDecimal)
  | cs => some (none, cs)

/-- A number without its sign, and what follows it. -/
def number (negative : Bool) (cs : List Char) : Option (Datum × List Char) :=
  let written := cs.takeWhile isDecimal
  match written, fractionPart (cs.dropWhile isDecimal) with
  | [], _ => none
  | '0' :: _ :: _, _ => none
  | _, none => none
  | _, some (fraction, rest) =>
    let whole := (digitValues written).foldl Significand.addWhole {}
    match exponentPart rest with
    | none => none
    | some (exponent, rest') =>
      match fraction, exponent with
      | none, none => some (wholeDatum negative whole, rest')
      | _, _ =>
        let s := (fraction.getD []).foldl Significand.addFraction { whole with full := false }
        some (floatDatum negative s (exponent.getD 0), rest')

def isBlank (c : Char) : Bool := c = ' ' || c = '\t' || c = '\n' || c = '\r'

/-- The first token of a text that does not start with a blank. -/
def token : List Char → Option (Token × List Char)
  | [] => none
  | '[' :: rest => some (.openList, rest)
  | ']' :: rest => some (.closeList, rest)
  | '\x7b' :: rest => some (.openTable, rest)
  | '\x7d' :: rest => some (.closeTable, rest)
  | ',' :: rest => some (.comma, rest)
  | ':' :: rest => some (.colon, rest)
  | '"' :: rest => (quoted {} rest).map fun r => (.text r.1, r.2)
  | 'n' :: 'u' :: 'l' :: 'l' :: rest => some (.leaf .null, rest)
  | 't' :: 'r' :: 'u' :: 'e' :: rest => some (.leaf (.bool true), rest)
  | 'f' :: 'a' :: 'l' :: 's' :: 'e' :: rest => some (.leaf (.bool false), rest)
  | '-' :: rest => (number true rest).map fun r => (.leaf r.1, r.2)
  | cs => (number false cs).map fun r => (.leaf r.1, r.2)

/-- All tokens of a text. The fuel is an upper bound on their number. -/
def tokensFrom : Nat → List Char → Option (List Token)
  | 0, _ => none
  | fuel + 1, cs =>
    match cs.dropWhile isBlank with
    | [] => some []
    | rest =>
      match token rest with
      | none => none
      | some (t, rest') => (tokensFrom fuel rest').map (t :: ·)

/-- A list or table under construction, its last part first. -/
inductive Frame where
  | list (items : List Datum)
  | table (entries : List (Datum × Datum)) (key : Option Datum)
deriving Repr, Inhabited

/-- What may come next. -/
inductive Awaited where
  | value
  | valueOrClose
  | key
  | keyOrClose
  | colon
  | separator
  | nothing
deriving DecidableEq, Repr, Inhabited

/-- A datum under construction. -/
structure Builder where
  stack : List Frame := []
  awaited : Awaited := .value
  result : Option Datum := none
deriving Repr, Inhabited

namespace Builder

/-- Put a whole value where one is due. -/
def put (b : Builder) (d : Datum) : Option Builder :=
  match b.stack with
  | [] => some { b with awaited := .nothing, result := some d }
  | .list items :: rest =>
    some { b with stack := .list (d :: items) :: rest, awaited := .separator }
  | .table entries (some key) :: rest =>
    some { b with stack := .table ((key, d) :: entries) none :: rest, awaited := .separator }
  | .table _ none :: _ => none

/-- End the innermost list or table. -/
def close (b : Builder) (isList : Bool) : Option Builder :=
  match b.stack, isList with
  | .list items :: rest, true => { b with stack := rest }.put (.list items.reverse)
  | .table entries none :: rest, false => { b with stack := rest }.put (.table entries.reverse)
  | _, _ => none

/-- Start a value, or end the innermost list where that is allowed. -/
def value (b : Builder) (mayClose : Bool) : Token → Option Builder
  | .openList => some { b with stack := .list [] :: b.stack, awaited := .valueOrClose }
  | .openTable => some { b with stack := .table [] none :: b.stack, awaited := .keyOrClose }
  | .text d | .leaf d => b.put d
  | .closeList => if mayClose then b.close true else none
  | _ => none

/-- Take a key, or end the innermost table where that is allowed. -/
def key (b : Builder) (mayClose : Bool) : Token → Option Builder
  | .text d =>
    match b.stack with
    | .table entries none :: rest =>
      some { b with stack := .table entries (some d) :: rest, awaited := .colon }
    | _ => none
  | .closeTable => if mayClose then b.close false else none
  | _ => none

/-- Go on after a part of a list or table. -/
def separator (b : Builder) : Token → Option Builder
  | .comma =>
    match b.stack with
    | .list _ :: _ => some { b with awaited := .value }
    | .table _ _ :: _ => some { b with awaited := .key }
    | [] => none
  | .closeList => b.close true
  | .closeTable => b.close false
  | _ => none

def step (b : Builder) (t : Token) : Option Builder :=
  match b.awaited, t with
  | .value, t => b.value false t
  | .valueOrClose, t => b.value true t
  | .key, t => b.key false t
  | .keyOrClose, t => b.key true t
  | .colon, .colon => some { b with awaited := .value }
  | .separator, t => b.separator t
  | _, _ => none

end Builder

/-- Read a whole text. A text with control characters inside quotes is left to the caller, as raw text. -/
def parseLoose? (s : String) : Option Datum :=
  let cs := s.toList
  (tokensFrom (cs.length + 1) cs).bind fun ts =>
    (ts.foldlM Builder.step {}).bind Builder.result

/-- Read a whole text that is well formed throughout. -/
def parse? (s : String) : Option Datum := (parseLoose? s).filter Datum.hasNoRawText

/-- How a character is written inside quotes. -/
def escape (c : Char) : String :=
  match c with
  | '"' => "\\\""
  | '\\' => "\\\\"
  | '\n' => "\\n"
  | '\r' => "\\r"
  | '\t' => "\\t"
  | '\x08' => "\\b"
  | '\x0c' => "\\f"
  | c =>
    if c.toNat < 0x20 then "\\u00" ++ String.ofList (hexPair (UInt8.ofNat c.toNat)) else c.toString

def quote (s : String) : String := "\"" ++ String.join (s.toList.map escape) ++ "\""

mutual

/-- Write a datum behind a text. -/
def append (out : String) : Datum → String
  | .null | .unreadable => out ++ "null"
  | .bool b => out ++ if b then "true" else "false"
  | .nat n => out ++ Nat.repr n
  | .int i => out ++ toString i
  | .float bits => out ++ (binary64Text? bits).getD "null"
  | .text s _ => out ++ quote s
  | .bytes bs | .rawText bs =>
    out ++ "[" ++ String.intercalate "," (bs.map fun b => Nat.repr b.toNat) ++ "]"
  | .list items => appendItems (out ++ "[") items ++ "]"
  | .table entries => appendEntries (out ++ "\x7b") entries ++ "\x7d"

def appendItems (out : String) : List Datum → String
  | [] => out
  | [d] => append out d
  | d :: rest => appendItems (append out d ++ ",") rest

def appendEntries (out : String) : List (Datum × Datum) → String
  | [] => out
  | [(k, d)] => append (append out k ++ ":") d
  | (k, d) :: rest => appendEntries (append (append out k ++ ":") d ++ ",") rest

end

/-- Write a datum in one line. -/
def render (d : Datum) : String := append "" d

/-- A new line at a depth, two blanks for each level. -/
def newLine (depth : Nat) : String := "\n" ++ String.join (List.replicate depth "  ")

mutual

/-- Write a datum behind a text, each part on a line of its own. -/
def appendLines (depth : Nat) (out : String) : Datum → String
  | .list [] => out ++ "[]"
  | .list (d :: rest) =>
    appendItemLines (depth + 1) (out ++ "[" ++ newLine (depth + 1)) (d :: rest) ++ newLine depth ++ "]"
  | .table [] => out ++ "\x7b\x7d"
  | .table (e :: rest) =>
    appendEntryLines (depth + 1) (out ++ "\x7b" ++ newLine (depth + 1)) (e :: rest)
      ++ newLine depth ++ "\x7d"
  | d => append out d

def appendItemLines (depth : Nat) (out : String) : List Datum → String
  | [] => out
  | [d] => appendLines depth out d
  | d :: rest => appendItemLines depth (appendLines depth out d ++ "," ++ newLine depth) rest

def appendEntryLines (depth : Nat) (out : String) : List (Datum × Datum) → String
  | [] => out
  | [(k, d)] => appendLines depth (append out k ++ ": ") d
  | (k, d) :: rest =>
    appendEntryLines depth
      (appendLines depth (append out k ++ ": ") d ++ "," ++ newLine depth) rest

end

/-- Write a datum in lines. -/
def renderLines (d : Datum) : String := appendLines 0 "" d

end WorkStealing.Text.Json

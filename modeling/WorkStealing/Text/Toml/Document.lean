import WorkStealing.Text.Toml.Scalar
import WorkStealing.Text.Toml.Table

/-!
# TOML: documents

A document is a row of lines: pairs of a key and a value, headers of tables, headers of elements of
arrays of tables, and comments. Values may nest fewer than `nestingLimit` levels deep.
-/

namespace WorkStealing.Text.Toml

/-- Number of levels, and of parts of a dotted key, that is too many. -/
def nestingLimit : Nat := 80

def isBareKey (c : Char) : Bool :=
  ('a' ≤ c && c ≤ 'z') || ('A' ≤ c && c ≤ 'Z') || isDecimal c || c = '_' || c = '-'

/-- One part of a key. -/
def keyPart (fuel : Nat) : Reader String
  | '"' :: rest => basicText [] fuel rest
  | '\'' :: rest => literalText [] rest
  | cs =>
    let name := cs.takeWhile isBareKey
    if name.isEmpty then none else some (String.ofList name, cs.dropWhile isBareKey)

/-- The parts of a dotted key; blanks may stand around each part. -/
def keyParts : Nat → Reader (List String)
  | 0, _ => none
  | fuel + 1, cs =>
    match keyPart fuel (cs.dropWhile isBlank) with
    | none => none
    | some (name, rest) =>
      match rest.dropWhile isBlank with
      | '.' :: after => (keyParts fuel after).map fun r => (name :: r.1, r.2)
      | after => some ([name], after)

/-- A key: where it leads and the name at the end. -/
def key (fuel : Nat) (cs : List Char) : Option ((List String × String) × List Char) :=
  match keyParts fuel cs with
  | none => none
  | some (names, rest) =>
    match names.getLast? with
    | some name => if nestingLimit ≤ names.length then none else some ((names.dropLast, name), rest)
    | none => none

/-- Skip a comment, if there is one, up to the end of its line. -/
def skipComment : List Char → List Char
  | '#' :: rest => rest.dropWhile isPrintable
  | cs => cs

/-- Skip blanks, line ends and comments; a comment must end its line. -/
def skipFiller : Nat → List Char → Option (List Char)
  | 0, _ => none
  | fuel + 1, cs =>
    match skipBlankLines cs with
    | '#' :: rest =>
      (lineEnd? (rest.dropWhile isPrintable)).bind (skipFiller fuel)
    | rest => some rest

mutual

/-- A value; `depth` levels are open already. -/
def value (depth : Nat) : Nat → Reader Datum
  | 0, _ => none
  | fuel + 1, '[' :: rest =>
    if nestingLimit ≤ depth + 1 then none
    else (elements (depth + 1) fuel rest).map fun r => (.list r.1, r.2)
  | fuel + 1, '\x7b' :: rest =>
    if nestingLimit ≤ depth + 1 then none
    else
      match rest.dropWhile isBlank with
      | '\x7d' :: after => some (.table [], after)
      | inner =>
        (pairs (depth + 1) fuel [] inner).map fun r => (.table (entriesDatum r.1), r.2)
  | fuel + 1, cs => scalar fuel cs

/-- The elements of an array after its opening bracket or a comma. -/
def elements (depth : Nat) : Nat → Reader (List Datum)
  | 0, _ => none
  | fuel + 1, cs =>
    match skipFiller (fuel + 1) cs with
    | none => none
    | some (']' :: rest) => some ([], rest)
    | some start =>
      match value depth fuel start with
      | none => none
      | some (d, rest) =>
        match skipFiller (fuel + 1) rest with
        | some (',' :: after) => (elements depth fuel after).map fun r => (d :: r.1, r.2)
        | some (']' :: after) => some ([d], after)
        | _ => none

/-- The pairs of an inline table, which stands on one line. -/
def pairs (depth : Nat) : Nat → Entries → Reader Entries
  | 0, _, _ => none
  | fuel + 1, es, cs =>
    match key fuel cs with
    | some ((path, name), '=' :: rest) =>
      match value depth fuel (rest.dropWhile isBlank) with
      | none => none
      | some (d, rest') =>
        match addPair path name d .stated es with
        | none => none
        | some es' =>
          match rest'.dropWhile isBlank with
          | ',' :: after => pairs depth fuel es' after
          | '\x7d' :: after => some (es', after)
          | _ => none
    | _ => none

end

/-- The tables read so far, and the one that pairs are added to. -/
structure Draft where
  root : Entries := []
  current : List String := []

/-- Skip the rest of a line: blanks, perhaps a comment, and the line end. -/
def endOfLine (cs : List Char) : Option (List Char) :=
  match skipComment (cs.dropWhile isBlank) with
  | [] => some []
  | rest => lineEnd? rest

/-- A header after its opening brackets. -/
def header (fuel : Nat) (doc : Draft) (closing : List Char)
    (opening : List String → String → Entries → Option Entries) (cs : List Char) :
    Option (Draft × List Char) :=
  match key fuel cs with
  | none => none
  | some ((path, name), rest) =>
    if closing.isPrefixOf rest then
      match opening path name doc.root, endOfLine (rest.drop closing.length) with
      | some root, some after => some ({ root := root, current := path ++ [name] }, after)
      | _, _ => none
    else none

/-- A pair of a key and a value, with the rest of its line. -/
def pair (fuel : Nat) (doc : Draft) (cs : List Char) : Option (Draft × List Char) :=
  match key fuel cs with
  | some ((path, name), '=' :: rest) =>
    match value 0 fuel (rest.dropWhile isBlank) with
    | none => none
    | some (d, rest') =>
      match descend false (addPair path name d) doc.current .stated doc.root, endOfLine rest' with
      | some root, some after => some ({ doc with root := root }, after)
      | _, _ => none
  | _ => none

/-- One line that is not blank. -/
def line (fuel : Nat) (doc : Draft) : List Char → Option (Draft × List Char)
  | '[' :: '[' :: rest => header fuel doc [']', ']'] openElement rest
  | '[' :: rest => header fuel doc [']'] openTable rest
  | cs => pair fuel doc cs

/-- The lines of a document. The fuel bounds their number. -/
def linesFrom : Nat → Draft → List Char → Option Draft
  | 0, _, _ => none
  | fuel + 1, doc, cs =>
    match cs.dropWhile isBlank with
    | [] => some doc
    | rest =>
      if rest.head? = some '#' ∨ (lineEnd? rest).isSome then
        (endOfLine rest).bind (linesFrom fuel doc)
      else (line (rest.length + 1) doc rest).bind fun r => linesFrom fuel r.1 r.2

/-- Read a document. A byte order mark may stand in front. -/
def parse? (s : String) : Option Datum :=
  let cs :=
    match s.toList with
    | '\ufeff' :: rest => rest
    | cs => cs
  (linesFrom (cs.length + 1) {} cs).map fun doc => .table (entriesDatum doc.root)

end WorkStealing.Text.Toml

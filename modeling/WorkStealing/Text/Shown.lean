/-!
# Shown records

How a value of several parts is written for a person to read: its name and its parts in braces, each
part after its label.
-/

namespace WorkStealing.Text

/-- The labelled parts of a value, in braces after its name. -/
def shownRecord (name : String) (parts : List (String × String)) : String :=
  name ++ " \x7b " ++ String.intercalate ", " (parts.map fun p => p.1 ++ ": " ++ p.2) ++ " \x7d"

/-- One unlabelled part, in parentheses after the name. -/
def shownPart (name part : String) : String := name ++ "(" ++ part ++ ")"

/-- A natural number in decimal digits. -/
def shownNat (n : Nat) : String := Nat.repr n

def shownBool : Bool → String
  | true => "true"
  | false => "false"

end WorkStealing.Text

import ComponentDocs.Text.Blank
import ComponentDocs.Text.Word

/-!
# Numerals

Integers written in decimal digits of any script.

* `readInteger?`: a sign and digits between blanks, with single underscores between digits.
-/

namespace ComponentDocs.Text

/-- The number of some digits that follow the number `n`; a single underscore may stand between two
digits. -/
def readDigits? (n : Nat) : List Char → Option Nat
  | [] => some n
  | '_' :: c :: rest => do readDigits? (n * 10 + (← digitValue? c)) rest
  | c :: rest => do readDigits? (n * 10 + (← digitValue? c)) rest

/-- The number of one or more digits. -/
def readNatural? : List Char → Option Nat
  | [] => none
  | c :: rest => do readDigits? (← digitValue? c) rest

/-- The integer that a text writes. -/
def readInteger? (cs : List Char) : Option Int :=
  match trim cs with
  | '-' :: rest => (readNatural? rest).map fun n => -(n : Int)
  | '+' :: rest => (readNatural? rest).map Int.ofNat
  | rest => (readNatural? rest).map Int.ofNat

end ComponentDocs.Text

import ComponentDocs.Fault
import ComponentDocs.Text.Lines
import ComponentDocs.Text.Numeral

/-!
# Excerpts

The lines around a place in a text, numbered, with a marker on the line and a pointer below the
column, as compilers show them.

* `Position.ofJson?`: the place that a value describes;
* `excerpt`: the lines around a place.
-/

namespace ComponentDocs

/-! ## Places -/

/-- The integer that a value stands for: a number without its places, or a numeral. -/
def Json.toInteger : Json → Except Fault Int
  | .int value => .ok value
  | .decimal value => .ok value.truncate
  | .bool value => .ok (if value then 1 else 0)
  | .str value =>
    match Text.readInteger? value.toList with
    | some n => .ok n
    | none => .error (.badInteger value)
  | _ => .error .notRecord

/-- The place of a value whose fields are `line` and `column`. -/
def Position.ofFields? (start : Record) : Except Fault (Option Position) :=
  match Fields.get? start "line" with
  | none => .ok none
  | some line => do
    let line ← line.toInteger
    let column ← match Record.filled? start "column" with
      | some column => column.toInteger
      | none => .ok 0
    pure (some { line, column })

/-- The place that a value describes: its `start`, or the value itself. A column that is absent or empty
is zero; without a line there is no place. -/
def Position.ofJson? (location : Json) : Except Fault (Option Position) :=
  if location.isEmptyValue then .ok none
  else match (Fields.get? location.fields "start").getD location with
    | .obj start => Position.ofFields? start
    | _ => .ok none

/-- The value that describes a place. -/
def Position.toJson (position : Position) : Json :=
  .obj [("start", .obj [("line", .int position.line), ("column", .int position.column)])]

namespace Text

/-! ## Excerpts -/

/-- How many lines are shown above and below the place. -/
structure Window where
  above : Int
  below : Int

/-- Two lines above the place and three below. -/
def Window.standard : Window := ⟨2, 3⟩

/-- The text with blanks in front up to a width. -/
def alignRight (width : Nat) (cs : List Char) : List Char := List.replicate (width - cs.length) ' ' ++ cs

/-- The shown form of line `number`; the line of the place is marked. -/
def excerptLine (gutter : Nat) (marked : Bool) (number : Nat) (line : List Char) : List Char :=
  trimEnd ((if marked then '>' else ' ') :: ' ' :: alignRight gutter (Nat.toDigits 10 number)
    ++ [' ', '|', ' '] ++ line)

/-- The line below the place, with a pointer under the column. -/
def pointerLine (gutter column : Nat) : List Char :=
  [' ', ' '] ++ List.replicate gutter ' ' ++ [' ', '|', ' '] ++ List.replicate (column - 1) ' ' ++ ['^']

/-- The line of the place, moved into the text if it lies outside. -/
def clampLine (count : Nat) (line : Int) : Nat := (min (max line 1) count).toNat

/-- The shown lines: those from the numbered line `number` on, in a text whose place is on line `at`. -/
def excerptLines (gutter place : Nat) (column : Int) : Nat → List (List Char) → List (List Char)
  | _, [] => []
  | number, line :: rest =>
    let shown := excerptLine gutter (number == place) number line
    let pointer := if number = place ∧ 0 < column then [pointerLine gutter column.toNat] else []
    shown :: pointer ++ excerptLines gutter place column (number + 1) rest

/-- The lines around a place in a text. -/
def excerpt (source : String) (position : Option Position) (window : Window) : String :=
  let lines := splitLines source.toList
  match position with
  | none => ""
  | some position =>
    if lines.isEmpty then ""
    else
      let place := clampLine lines.length position.line
      let first := (max ((place : Int) - window.above) 1).toNat
      let last := (min ((place : Int) + window.below) lines.length).toNat
      let gutter := (Nat.toDigits 10 last).length
      let shown := (lines.drop (first - 1)).take (last + 1 - first)
      String.ofList (joinLines (excerptLines gutter place position.column first shown))

end Text

end ComponentDocs

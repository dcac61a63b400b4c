import ComponentDocs.Fault
import ComponentDocs.Text.Blank
import ComponentDocs.Text.Lines
import ComponentDocs.Text.Word

/-!
# Doclets

A description holds prose and doclets. A doclet starts with a tag line, `@tag` or `@tag value` on a
line of its own, and goes on over the lines after it up to a blank line or the next tag line.

* `Doclet`, `tagLine?`: a doclet, and the tag and value of a tag line;
* `scan`: one pass over the lines that collects the doclets and keeps the prose;
* `Doclet.parse`: the doclets of a description in text order;
* `Doclet.clean`: the description without its doclets;
* `Record.description`: the description of a record.
-/

namespace ComponentDocs

/-- A tag with its value. -/
structure Doclet where
  tag : String
  value : String
deriving DecidableEq, Repr

namespace Doclet

/-- The doclet as a record. -/
def toJson (doclet : Doclet) : Json := .obj [("tag", .str doclet.tag), ("value", .str doclet.value)]

/-! ## Lines -/

/-- The tag and the value of a tag line: blanks, `@`, a word, and then the end or a blank and the
value. -/
def tagLine? (line : List Char) : Option (List Char × List Char) :=
  match Text.trimStart line with
  | '@' :: rest =>
    match Text.spanWord rest with
    | ([], _) => none
    | (tag, []) => some (tag, [])
    | (tag, c :: value) => if Text.isBlank c then some (tag, Text.trim (c :: value)) else none
  | _ => none

/-- The doclet with one more line folded into its value. -/
def extend (doclet : Doclet) (piece : List Char) : Doclet :=
  { doclet with
    value := if doclet.value = "" then String.ofList piece else doclet.value ++ " " ++ String.ofList piece }

/-! ## Scanning -/

/-- What was read so far: the doclets and the kept lines, last first, and whether the last doclet still
takes lines. -/
structure Scan where
  doclets : List Doclet
  kept : List (List Char)
  isOpen : Bool

/-- Nothing was read. -/
def Scan.start : Scan := ⟨[], [], false⟩

/-- A blank line at this place would double a gap or open the text. -/
def Scan.endsBlank (scan : Scan) : Bool :=
  match scan.kept with
  | [] => true
  | line :: _ => Text.isBlankLine line

/-- Reads a blank line. After a doclet it is kept only where it separates two paragraphs. -/
def Scan.blank (scan : Scan) (line : List Char) : Scan :=
  if scan.isOpen && scan.endsBlank then { scan with isOpen := false }
  else { scan with kept := line :: scan.kept, isOpen := false }

/-- Reads a line that is no tag line and not blank. -/
def Scan.prose (scan : Scan) (line : List Char) : Scan :=
  match scan.isOpen, scan.doclets with
  | true, doclet :: rest => { scan with doclets := doclet.extend (Text.trim line) :: rest }
  | _, _ => { scan with kept := line :: scan.kept }

/-- Reads a line. -/
def Scan.line (scan : Scan) (line : List Char) : Scan :=
  match tagLine? line with
  | some (tag, value) =>
    { scan with doclets := ⟨String.ofList tag, String.ofList value⟩ :: scan.doclets, isOpen := true }
  | none => if Text.isBlankLine line then scan.blank line else scan.prose line

/-- Reads the lines of a description. -/
def scan (description : List Char) : Scan := (Text.splitLines description).foldl Scan.line Scan.start

/-! ## Descriptions -/

/-- The doclets of a description in text order. -/
def parse (description : String) : List Doclet := (scan description.toList).doclets.reverse

/-- The description without its doclets and without blanks at its ends. -/
def clean (description : String) : String :=
  let scanned := scan description.toList
  if scanned.doclets.isEmpty then Text.trimString description
  else String.ofList (Text.trim (Text.joinLines scanned.kept.reverse))

end Doclet

/-- The description of a record, empty if it has none. -/
def Record.description (record : Record) : Except Fault String :=
  match Record.filled? record "description" with
  | none => .ok ""
  | some (.str text) => .ok text
  | some value => .error (.value (.noOperation value.typeName "strip"))

end ComponentDocs

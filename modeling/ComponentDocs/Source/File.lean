import ComponentDocs.Fault
import ComponentDocs.Source.Language
import ComponentDocs.Text.Utf8
import ComponentDocs.Tree.Cursor

/-!
# Source files

A source with its syntax tree. Nodes address the bytes of the source in UTF-8; places that are shown
count lines and characters.

* `SourceFile`, `SourceFile.text`: a parsed source and the text of a node;
* `SourceFile.firstError?`: the first node that the parser could not read or missed;
* `SourceFile.row`, `SourceFile.position`: the line of an offset, and its line and column;
* `SourceFile.check`: a source with an unreadable node is rejected.
-/

namespace ComponentDocs

/-- A parsed source. -/
structure SourceFile where
  filename : Option String
  code : Array UInt8
  language : Language
  root : Node

namespace SourceFile

/-- The source with a given tree, read with the language that its name, its text and the options ask
for. -/
def ofTree (filename : Option String) (content : String) (options : ParserOptions) (tree : Node) : SourceFile :=
  { filename, code := (Text.encode content.toList).toArray,
    language := Language.select filename content options, root := tree }

/-- The bytes between two offsets. -/
def slice (src : SourceFile) (start stop : Nat) : List UInt8 := (src.code.extract start stop).toList

/-- The characters between two offsets. -/
def characters (src : SourceFile) (start stop : Nat) : List Char := Text.decode (src.slice start stop)

def text (src : SourceFile) (node : Node) : String := String.ofList (src.characters node.start node.stop)

/-- The text of a node that may be absent. -/
def text? (src : SourceFile) (node : Option Node) : Option String := node.map src.text

/-- The top of the tree. -/
def top (src : SourceFile) : Cursor := Cursor.root src.root

/-! ## Places -/

/-- The number of line feeds before an offset. -/
def row (src : SourceFile) (offset : Nat) : Nat := (src.slice 0 offset).count 10

/-- The offset after the last line feed before an offset. -/
def lineStart (src : SourceFile) (offset : Nat) : Nat :=
  let before := src.slice 0 offset
  before.length - (before.reverse.takeWhile (· ≠ 10)).length

/-- The line and the column of an offset; lines end with line feeds and columns count characters. -/
def position (src : SourceFile) (offset : Nat) : Position :=
  { line := src.row offset + 1, column := (src.characters (src.lineStart offset) offset).length + 1 }

/-! ## Errors -/

/-- The first node that the parser could not read or missed. -/
def firstError? (src : SourceFile) : Option Cursor := src.top.walk.find? (·.node.isError)

/-- A place as a message shows it. -/
def placeText (position : Position) : String :=
  " (" ++ String.ofList (integerText position.line) ++ ":" ++ String.ofList (integerText position.column) ++ ")"

/-- The rejection of a source because of a node. -/
def rejection (src : SourceFile) (node : Node) : Rejection :=
  let position := src.position node.start
  let words := if node.missing then "Missing " ++ node.kind else "Unexpected token"
  { kind := .unreadable, message := words ++ placeText position, position }

/-- A source with an unreadable node is rejected. -/
def check (src : SourceFile) : Except Fault Unit :=
  match src.firstError? with
  | some c => .error (.rejected (src.rejection c.node))
  | none => .ok ()

end SourceFile

end ComponentDocs

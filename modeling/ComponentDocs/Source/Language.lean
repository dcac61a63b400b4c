import ComponentDocs.Json.Basic
import ComponentDocs.Path
import ComponentDocs.Text.Blank
import ComponentDocs.Text.Case
import ComponentDocs.Text.Word

/-!
# Languages

With which grammar a file is read, and whose type annotations it has. Flow is asked for by an option or
by a pragma in the comments that open the file.

* `openingComments`, `hasFlowPragma`;
* `ParserOptions`, `Flavor`, `Language`;
* `Language.select`: the grammar and the flavor for a file.
-/

namespace ComponentDocs

open Text

/-! ## The pragma -/

/-- Where a scan of the opening comments stands; a comment's text so far is kept last character first. -/
inductive Opening where
  | between
  | line (found : List Char)
  | block (found : List Char)

/-- The comments from this place on, up to the first text outside of comments. A block comment that is
not closed is none. -/
def commentsFrom : Opening → List Char → List (List Char)
  | .between, '/' :: '/' :: rest => commentsFrom (.line []) rest
  | .between, '/' :: '*' :: rest => commentsFrom (.block []) rest
  | .between, c :: rest => if isBlank c then commentsFrom .between rest else []
  | .between, [] => []
  | .line found, [] => [found.reverse]
  | .line found, c :: rest =>
    if c = '\n' then found.reverse :: commentsFrom .between rest else commentsFrom (.line (c :: found)) rest
  | .block found, '*' :: '/' :: rest => found.reverse :: commentsFrom .between rest
  | .block found, c :: rest => commentsFrom (.block (c :: found)) rest
  | .block _, [] => []

/-- The texts of the comments that open a file. -/
def openingComments (content : List Char) : List (List Char) := commentsFrom .between content

def flowPragma : List Char := "@flow".toList

/-- The text starts with the pragma, and no word character goes on after it. -/
def startsWithPragma (cs : List Char) : Bool :=
  flowPragma.isPrefixOf cs && !((cs.drop flowPragma.length).head?.any isWord)

/-- The pragma stands somewhere in the text. -/
def mentionsPragma : List Char → Bool
  | [] => false
  | c :: rest => startsWithPragma (c :: rest) || mentionsPragma rest

/-- A comment that opens the file holds the pragma. -/
def hasFlowPragma (content : String) : Bool := (openingComments content.toList).any mentionsPragma

/-! ## Options -/

/-- How a file is to be parsed: a grammar that is forced, and whether it is Flow. -/
structure ParserOptions where
  grammar : Option String
  flow : Bool
deriving DecidableEq, Repr

namespace ParserOptions

/-- Nothing is asked for. -/
def none : ParserOptions := ⟨.none, false⟩

/-- The options of a record with the fields `language` and `flow`. -/
def ofRecord (record : Record) : ParserOptions :=
  { grammar := Record.text? record "language", flow := (Record.filled? record "flow").isSome }

end ParserOptions

/-! ## Languages -/

/-- Whose type annotations a file has. -/
inductive Flavor where
  | flow
  | typescript
deriving DecidableEq, Repr

def Flavor.name : Flavor → String
  | flow => "flow"
  | typescript => "typescript"

/-- The grammar a file is read with and the flavor of its annotations. -/
structure Language where
  grammar : String
  flavor : Option Flavor
deriving DecidableEq, Repr

namespace Language

/-- The extension of a file name in lower case. -/
def extension (filename : Option String) : String :=
  String.ofList (lower (Path.extension (filename.getD "")).toList)

/-- The grammar for an extension if none is forced. -/
def grammarFor (extension : String) (flow : Bool) : String :=
  if extension = ".ts" then "typescript"
  else if extension = ".tsx" ∨ flow then "tsx"
  else "javascript"

/-- The flavor of the annotations; plain JavaScript has none, and a TypeScript file is never Flow. -/
def flavorFor (grammar extension : String) (flow : Bool) : Option Flavor :=
  if grammar = "javascript" then none
  else if flow ∧ extension ≠ ".ts" ∧ extension ≠ ".tsx" then some .flow
  else some .typescript

/-- The language of a file. -/
def select (filename : Option String) (content : String) (options : ParserOptions) : Language :=
  let flow := options.flow || hasFlowPragma content
  let grammar := options.grammar.getD (grammarFor (extension filename) flow)
  { grammar, flavor := flavorFor grammar (extension filename) flow }

end Language

end ComponentDocs

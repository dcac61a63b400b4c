import ComponentDocs.Metadata.Normal
import ComponentDocs.Source.Grammar
import ComponentDocs.Text.Excerpt

/-!
# Extraction

From a source and its tree to the normal records of its components.

* `CallerHandler`, `ExtractionOptions`: what a caller may ask for;
* `loadSource`: the parsed source, if there is a grammar for it;
* `identityPath`: the path that stands for a file without one;
* `rawRecords`, `extract`: the raw and the normal records of a file, or why it has none.
-/

namespace ComponentDocs

/-- A handler that is given the record of the file as well. It neither changes that record nor keeps a hold on what it
stored: every component has values of its own. -/
abbrev CallerHandler := Record → Handler

/-- What a caller may ask for. -/
structure ExtractionOptions where
  folder : Option String
  parser : ParserOptions
  resolver : Resolver
  handlers : List CallerHandler

/-- Nothing is asked for. -/
def ExtractionOptions.none : ExtractionOptions :=
  { folder := .none, parser := .none, resolver := .all, handlers := [] }

/-! ## Loading -/

/-- The name of a file seen from a folder. -/
def placeFile (folder filename : Option String) : Option String :=
  match folder.bind Method.nonEmpty?, filename.bind Method.nonEmpty? with
  | some folder, some filename => some (Path.join folder filename)
  | _, _ => filename

/-- A source with the tree that its grammar made of it. -/
def loadSource (filename folder : Option String) (content : String) (options : ParserOptions) (tree : Node) :
    Except Fault SourceFile :=
  let src := SourceFile.ofTree (placeFile folder filename) content options tree
  if grammarNames.contains src.language.grammar then .ok src
  else .error (.unknownGrammar src.language.grammar)

/-! ## Files without a path -/

/-- The path that stands for the file of a record without one, made of a number. -/
def unknownPath (number : Nat) : String := "/UnknownComponent" ++ toString number

def knownPath? (file : Record) : Option String := Record.text? file "absolute_path"

/-- The path that names of components are inferred from. -/
def identityPath (file : Record) (number : Nat) : String := (knownPath? file).getD (unknownPath number)

/-- The number for the next file without a path. -/
def nextNumber (file : Record) (number : Nat) : Nat := if (knownPath? file).isSome then number else number + 1

/-! ## Extraction -/

/-- All handlers for a file: the standard ones, the one for the name, and those of the caller. -/
def handlersFor (file : Record) (path : String) (options : ExtractionOptions) : List Handler :=
  Handler.standard ++ Handler.displayName path :: options.handlers.map (· file)

/-- A rejection that has a place shows the lines around it. -/
def addExcerpt (content : String) (rejection : Rejection) : Rejection :=
  match rejection.position with
  | some position => { rejection with excerpt := some (Text.excerpt content (some position) .standard) }
  | none => rejection

/-- A file without components has none; any other rejection shows its place. -/
def settleFault (content : String) : Fault → Except Fault (List Record)
  | .rejected rejection =>
    if rejection.kind = .missingDefinition then .ok []
    else .error (.rejected (addExcerpt content rejection))
  | fault => .error fault

/-- The records of the components of a file as the handlers leave them. -/
def rawRecords (content : String) (tree : Node) (file : Record) (options : ExtractionOptions) (number : Nat) :
    Outcome (List Record) := do
  let src ← loadSource (Record.text? file "absolute_path") options.folder content options.parser tree
  componentRecords src options.resolver (handlersFor file (identityPath file number) options)

/-- The normal records of the components of a file. -/
def extract (content : String) (tree : Node) (file : Record) (options : ExtractionOptions) (number : Nat) :
    Outcome (List Record) := do
  let raws ← (rawRecords content tree file options number).recover (settleFault content)
  normalizeAll raws

end ComponentDocs

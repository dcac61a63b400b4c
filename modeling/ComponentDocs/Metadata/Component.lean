import ComponentDocs.Component.Resolver
import ComponentDocs.Documentation.Handler

/-!
# Components of a source

One source becomes a list of records, one for each component that the resolver chooses.

* `chooseDefinitions`: what the resolver chooses;
* `componentRecords`: the records of a source, or why it has none.
-/

namespace ComponentDocs

/-- The name of a source in the log. -/
def SourceFile.shownName (src : SourceFile) : String := (src.filename.bind Method.nonEmpty?).getD "<anonymous>"

/-- What is logged when definitions were found. -/
def foundDefinitionsLog (src : SourceFile) (definitions : List Definition) : List LogEntry :=
  [.debug (src.shownName ++ ": " ++ toString definitions.length ++ " component definition(s) ["
    ++ src.language.grammar ++ "]")]

/-- The definitions that a resolver chooses in a source without errors; there has to be one. -/
def chooseDefinitions (src : SourceFile) (resolver : Resolver) : Outcome (List Definition) := do
  src.check
  match ← Outcome.call .resolver (resolver src) with
  | [] => Outcome.fail (.rejected .missingDefinition)
  | definitions => pure definitions

/-- The record that handlers make for a definition. -/
def componentRecord (src : SourceFile) (handlers : List Handler) (definition : Definition) : Outcome Record := do
  let doc ← Handler.run handlers src definition
  pure doc.toRecord

def componentRecords (src : SourceFile) (resolver : Resolver) (handlers : List Handler) :
    Outcome (List Record) := do
  let definitions ← chooseDefinitions src resolver
  Outcome.report (foundDefinitionsLog src definitions)
  definitions.mapM (componentRecord src handlers)

end ComponentDocs

import ComponentDocs.Batch.Session
import ComponentDocs.Batch.Sources
import ComponentDocs.Digest.Identifier
import ComponentDocs.Graph.FilePass

/-!
# Processed files

The components of one source file after another, each file written as JSON text below an output folder.
A file that fails is reported and left out.

* `Processed`, `processSource`;
* `graphOf`: the graph of processed files.
-/

namespace ComponentDocs

/-- A file with its components. -/
structure Processed where
  file : Record
  components : List Record

/-- Where the components of a source file are written. -/
def outputPath (folder root outputBase path : String) : String :=
  Path.join outputBase (Path.relative folder path root ++ ".json")

/-- The folder in which a file is, as a path. -/
def parentFolder (path : String) : String :=
  let parent := Path.folder path
  if parent = "" then "." else parent

/-- What a report says about a source file that failed. -/
def sourceReport (path : String) : Fault → List LogEntry
  | .rejected rejection =>
    [.trace .debug,
     .error ("Unable to process - " ++ path ++ ". Skipping it.\n" ++ rejection.message ++ "\n"
      ++ rejection.excerpt.getD "")]
  | fault =>
    [.trace .error, .error ("Unable to process - " ++ path ++ ". Skipping it. (" ++ fault.message ++ ")")]

/-! ## One file -/

/-- The components of a source file. A file on disk has a path, so it needs no number. -/
def extractSource (options : ExtractionOptions) (path : String) : Job Processed := do
  let session ← get
  let file := fileRecord session.workspace.folder session.root path
  let source ← Job.look (·.readText path)
  let place := placeFile options.folder (Record.text? file "absolute_path")
  let outcome := extract source.withoutMark (source.treeFor place options.parser) file options 1
  Job.report outcome.log
  match outcome.result with
  | .ok components => pure { file, components }
  | .error fault => throw fault

/-- Writes a text file with the folders on the way to it. The file is opened, which leaves it empty, and then written.
Every character of a text has an encoding, so what was opened can be written. -/
def writeText (path content : String) : Job Unit := do
  Job.change (·.makeFolders (parentFolder path))
  Job.change (·.putFile path (.text (.plain "")))
  Job.change (·.putFile path (.text (.plain content)))

/-- Extracts and writes the components of a source file. -/
def processSource (options : ExtractionOptions) (root outputBase : String) (source : SourcePath) :
    Job Processed := do
  let processed ← extractSource options source.path
  let folder := (← get).workspace.folder
  writeText (outputPath folder root outputBase source.path)
    (Json.arr (processed.components.map .obj)).indentedText
  pure processed

/-- Extracts and writes the components of a source file, or reports it. -/
def processOrReport (options : ExtractionOptions) (root outputBase : String) (source : SourcePath) :
    Job (Option Processed) :=
  tryCatch (some <$> processSource options root outputBase source) fun fault => do
    Job.report (sourceReport source.path fault)
    pure none

/-! ## Graphs -/

/-- The graph with a processed file in place of what the file brought before. -/
def addProcessed (g : Graph) (processed : Processed) : Except Fault Graph := do
  let id ← Record.requireText processed.file "id"
  let schema ← emit nodeId processed.file processed.components
  pure (g.replaceFileNodes id processed.file schema)

def graphOf (files : List Processed) : Except Fault Graph := files.foldlM addProcessed Graph.empty

/-- The names of the two files of a stored graph. -/
def graphFileNames : List String := ["component_metadata.graphml", "component_metadata.gpickle"]

/-- Stores a graph in a folder and says where. -/
def storeGraph (graphDir : String) (g : Graph) : Job Unit := do
  let paths := graphFileNames.map (Path.join graphDir)
  for path in paths do
    Job.change (·.putFile path (.graph g))
  Job.say ("Wrote " ++ String.intercalate " and " paths)

/-- The graph that is stored in a folder. -/
def storedGraph (w : Workspace) (graphDir : String) : Except Fault Graph := do
  let path := Path.join graphDir "component_metadata.gpickle"
  match ← w.contentOf path with
  | .graph g => pure g
  | .text _ => throw (.file .missing path)

end ComponentDocs

import ComponentDocs.Batch.Processed

/-!
# Rebuilding

The graph of an earlier run, made of the component files that it wrote.

* `storedComponents`: the component files below a folder with what they hold;
* `rebuildGraph`.
-/

namespace ComponentDocs

/-- The ending of component files. -/
def componentEnding : List Char := ".json".toList

/-- The component files below a folder, by their paths seen from there. -/
def componentFiles (w : Workspace) (outputBase : String) : List (String × FileContent) :=
  let found := (w.filesBelow outputBase).filter fun file =>
    componentEnding.isSuffixOf (file.1.getLast?.getD "").toList
  (found.mergeSort fun a b => walkedBefore a.1 b.1).map fun file => (String.intercalate "/" file.1, file.2)

/-- The text of a file; a stored graph has none. -/
def FileContent.characters : FileContent → List Char
  | text source => source.content.toList
  | graph _ => []

/-- The component files below a folder with the values they hold. -/
def storedComponents (w : Workspace) (outputBase : String) : Except Fault (List (String × Json)) :=
  (componentFiles w outputBase).mapM fun file => do
    let value ← (Json.read (String.ofList (Text.withLineFeeds file.2.characters))).mapError Fault.badJson
    pure (file.1, value)

/-- The path of the source file of a component file. -/
def sourceOf (root : Option String) (stored : String) : String :=
  let cs := stored.toList
  let source := String.ofList (cs.take (cs.length - componentEnding.length))
  match root with
  | some root => Path.join root source
  | none => source

/-- Stores the graph of the component files below a folder; an empty root is none. -/
def rebuildGraph (outputBase graphDir : String) (root : Option String) : Job Graph := do
  let root := root.bind Method.nonEmpty?
  if let some root := root then Job.setRoot root
  let stored ← Job.look (storedComponents · outputBase)
  let session ← get
  let files := stored.map fun entry =>
    { file := fileRecord session.workspace.folder session.root (sourceOf root entry.1),
      components := entry.2.items.map Json.fields : Processed }
  let g ← Job.look fun _ => graphOf files
  Job.change (·.makeFolders graphDir)
  storeGraph graphDir g
  pure g

end ComponentDocs

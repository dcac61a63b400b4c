import ComponentDocs.Batch.Processed

/-!
# Building

One run over all source files below a root: their components are written below an output folder, and the
graph of all of them is stored.

* `BuildSettings`, `buildAll`.
-/

namespace ComponentDocs

/-- What a run is to do. -/
structure BuildSettings where
  root : String
  outputBase : String
  graphDir : String
  /-- What an earlier run left in the two folders is removed. -/
  clear : Bool
  options : ExtractionOptions

/-- Removes what an earlier run left. -/
def clearOutput (settings : BuildSettings) : Job Unit := do
  if settings.clear && (← get).workspace.hasFolder settings.outputBase then
    Job.change fun w => pure ((w.removeTree settings.outputBase).removeTree settings.graphDir)

def componentCount (files : List Processed) : Nat := (files.flatMap (·.components)).length

/-- What a run says at its end. -/
def doneLine (files : List Processed) (total : Nat) (outputBase : String) : String :=
  "Done! " ++ toString (componentCount files) ++ " components from " ++ toString files.length ++ "/"
    ++ toString total ++ " files in: " ++ outputBase

/-- Processes all source files below a root and stores their graph. -/
def buildAll (settings : BuildSettings) : Job Graph := do
  Job.setRoot settings.root
  let sources ← Job.look (sourceFiles · settings.root)
  clearOutput settings
  Job.change (·.makeFolders settings.outputBase)
  Job.change (·.makeFolders settings.graphDir)
  let root := Path.tidy settings.root
  let results ← sources.mapM (processOrReport settings.options root settings.outputBase)
  let files := results.filterMap id
  let g ← Job.look fun _ => graphOf files
  Job.say (doneLine files sources.length settings.outputBase)
  storeGraph settings.graphDir g
  pure g

end ComponentDocs

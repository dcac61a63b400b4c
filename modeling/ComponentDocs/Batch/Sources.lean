import ComponentDocs.Ignore.Rule
import ComponentDocs.Workspace.Basic

/-!
# Source files

The files below a folder that may hold components.

* `languageOf?`: the language that the end of a file name says;
* `SourcePath`, `sourceFiles`: the files that no ignore rule leaves out, by the names of their paths.
-/

namespace ComponentDocs

/-- The languages with the ends of the names of their files. -/
def languageExtensions : List (String × List String) :=
  [("javascript", [".js", ".jsx", ".mjs", ".cjs"]), ("typescript", [".ts", ".tsx"])]

/-- The last dot of a file name with what follows it, if something stands before and after the dot. -/
def nameExtension (name : String) : String :=
  let reversed := name.toList.reverse
  let extension := reversed.takeWhile (· ≠ '.')
  match extension, reversed.drop extension.length with
  | _ :: _, '.' :: _ :: _ => String.ofList ('.' :: extension.reverse)
  | _, _ => ""

/-- The language of a file, by its name. -/
def languageOf? (name : String) : Option String :=
  (languageExtensions.find? fun language => language.2.contains (nameExtension name)).map (·.1)

/-- A file that may hold components: its path, the path seen from the root, and its language. -/
structure SourcePath where
  path : String
  relative : String
  language : String
deriving DecidableEq, Repr

/-- The rules of the ignore file in a folder, with the one for installed packages. -/
def ignoreRules (w : Workspace) (root : String) : Except Fault (List IgnoreRule) := do
  let path := Path.inFolder root ".gitignore"
  let lines ←
    if (w.entry? path).isSome then pure (Text.splitLines (← w.readText path).content.toList) else pure []
  IgnoreRule.readAll (lines ++ ["node_modules/".toList])

/-- The source file at a place below the root, unless a rule leaves it out. -/
def sourcePath? (rules : List IgnoreRule) (root : String) (place : Location) : Option SourcePath := do
  let relative := String.intercalate "/" place
  let language ← languageOf? (place.getLast?.getD "")
  if isIgnored rules relative.toList then none
  else some { path := Path.inFolder root relative, relative, language }

/-- The source files below a folder. -/
def sourceFiles (w : Workspace) (root : String) : Except Fault (List SourcePath) := do
  let root := Path.tidy root
  let rules ← ignoreRules w root
  let places := ((w.filesBelow root).map (·.1)).mergeSort namesBefore
  pure (places.filterMap (sourcePath? rules root))

end ComponentDocs

import ComponentDocs.Fault
import ComponentDocs.Workspace.Entry
import ComponentDocs.Path

/-!
# Workspaces

Files and folders with a folder from which paths are seen. Every name on a path but the last has to lead
to a folder, and `..` leads out of it.

* `Workspace`, `Workspace.locate`: the place that a path leads to;
* `Workspace.entry?`, `Workspace.contentOf`: what is there;
* `Workspace.putFile`, `Workspace.makeFolders`, `Workspace.removeTree`: changes.
-/

namespace ComponentDocs

/-- Files and folders, and the folder from which paths are seen. -/
structure Workspace where
  top : Entry
  here : Location

namespace Workspace

/-- The folder from which paths are seen as a path. -/
def folder (w : Workspace) : String := "/" ++ String.intercalate "/" w.here

/-! ## Paths -/

/-- The place that names lead to from a place. -/
def walk (top : Entry) : Location → List String → Except FileProblem Location
  | place, [] => .ok place
  | place, name :: rest =>
    match top.find? place with
    | none => .error .missing
    | some (.file _) => .error .notFolder
    | some (.folder _) =>
      if name = "." then walk top place rest
      else if name = ".." then walk top place.dropLast rest
      else walk top (place ++ [name]) rest

/-- The place that a path leads to; something may be there or not. -/
def locate (w : Workspace) (path : String) : Except Fault Location :=
  if path = "" then .error (.file .missing path)
  else (walk w.top (if Path.isAbsolute path then [] else w.here) (Path.names path)).mapError (.file · path)

/-- What a path leads to. -/
def entry? (w : Workspace) (path : String) : Option Entry :=
  match w.locate path with
  | .ok place => w.top.find? place
  | .error _ => none

/-- A path leads to a folder. -/
def hasFolder (w : Workspace) (path : String) : Bool := (w.entry? path).any Entry.isFolder

/-- The files below the folder that a path leads to; none if there is no such folder. -/
def filesBelow (w : Workspace) (path : String) : List (Location × FileContent) :=
  ((w.entry? path).map Entry.files).getD []

/-! ## Reading and writing -/

/-- What the file holds that a path leads to. -/
def contentOf (w : Workspace) (path : String) : Except Fault FileContent := do
  match w.top.find? (← w.locate path) with
  | some (.file content) => pure content
  | some (.folder _) => throw (.file .isFolder path)
  | none => throw (.file .missing path)

/-- The text of a file; a stored graph is no text. -/
def readText (w : Workspace) (path : String) : Except Fault SourceText := do
  match ← w.contentOf path with
  | .text text => pure text
  | .graph _ => pure (.plain "")

/-- The workspace with a file in a folder that is there. -/
def putFile (w : Workspace) (path : String) (content : FileContent) : Except Fault Workspace := do
  let place ← w.locate path
  match w.top.find? place with
  | some (.folder _) => throw (.file .isFolder path)
  | _ => pure { w with top := w.top.put place (.file content) }

/-! ## Folders -/

/-- The workspace with a folder in a folder that is there. -/
def makeFolder (w : Workspace) (path : String) : Except Fault Workspace := do
  let place ← w.locate path
  match w.top.find? place with
  | some (.folder _) => pure w
  | some (.file _) => throw (.file .alreadyThere path)
  | none => pure { w with top := w.top.put place .emptyFolder }

/-- The workspace with the folders of some paths, as far as nothing is there yet. -/
def makeMissing (w : Workspace) : List String → Except Fault Workspace
  | [] => .ok w
  | path :: rest =>
    if (w.entry? path).isSome then makeMissing w rest
    else do makeMissing (← w.makeFolder path) rest

/-- The workspace with a folder and all folders on the way to it. -/
def makeFolders (w : Workspace) (path : String) : Except Fault Workspace := do
  (← w.makeMissing (Path.prefixes path).dropLast).makeFolder path

/-- A path ends with a name, not with `.` or `..`. -/
def endsWithName (path : String) : Bool :=
  ((Path.names path).getLast?).any fun name => !([".", ".."].contains name)

/-- The workspace without the folder that a path leads to; under a path that does not end with its name,
the folder is only emptied. -/
def removeTree (w : Workspace) (path : String) : Workspace :=
  match w.locate path with
  | .error _ => w
  | .ok place =>
    match w.top.find? place with
    | some (.folder _) =>
      if endsWithName path then { w with top := w.top.remove place }
      else { w with top := w.top.put place .emptyFolder }
    | _ => w

end Workspace

end ComponentDocs

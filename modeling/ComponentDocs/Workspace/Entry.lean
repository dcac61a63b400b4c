import ComponentDocs.Graph.Basic
import ComponentDocs.Source.Text

/-!
# Folders and files

A tree of folders with files in it. A place in it is the list of names that lead there.

* `FileContent`, `Entry`, `Location`;
* `Entry.find?`, `Entry.put`, `Entry.remove`: one place of a tree;
* `Entry.files`: all files with the names that lead to them;
* `namesBefore`, `walkedBefore`: orders of files.
-/

namespace ComponentDocs

/-- What a file holds. -/
inductive FileContent where
  | text (text : SourceText)
  | graph (graph : Graph)

/-- A file, or a folder with what it holds. -/
inductive Entry where
  | file (content : FileContent)
  | folder (entries : List (String × Entry))

/-- The names that lead to a place. -/
abbrev Location := List String

namespace Entry

/-- A folder without entries. -/
def emptyFolder : Entry := folder []

def isFolder : Entry → Bool
  | folder _ => true
  | file _ => false

/-! ## Places -/

/-- What is at a place. -/
def find? : Entry → Location → Option Entry
  | entry, [] => some entry
  | folder entries, name :: rest => (Fields.get? entries name).bind (find? · rest)
  | file _, _ :: _ => none

/-- Puts an entry at a place; folders on the way are made if they are missing. -/
def put : Entry → Location → Entry → Entry
  | _, [], new => new
  | folder entries, name :: rest, new =>
    folder (Fields.modify entries name emptyFolder fun entry => put entry rest new)
  | file content, _ :: _, _ => file content

/-- Takes away what is at a place. -/
def remove : Entry → Location → Entry
  | folder entries, [name] => folder (Fields.erase entries name)
  | folder entries, name :: rest =>
    match Fields.get? entries name with
    | some entry => folder (Fields.set entries name (remove entry rest))
    | none => folder entries
  | entry, _ => entry

/-! ## Files -/

mutual

/-- The files of a tree with the names that lead to them from `here`. -/
def filesFrom (here : Location) : Entry → List (Location × FileContent)
  | file content => [(here, content)]
  | folder entries => filesOf here entries

/-- The files of the entries of the folder at `here`. -/
def filesOf (here : Location) : List (String × Entry) → List (Location × FileContent)
  | [] => []
  | (name, entry) :: rest => filesFrom (here ++ [name]) entry ++ filesOf here rest

end

/-- The files of a folder; a file has none. -/
def files : Entry → List (Location × FileContent)
  | file _ => []
  | folder entries => filesOf [] entries

end Entry

/-! ## Orders -/

/-- The order of places by their names from the top. -/
def namesBefore : Location → Location → Bool
  | [], _ => true
  | _ :: _, [] => false
  | a :: as, b :: bs => if a = b then namesBefore as bs else decide (a ≤ b)

/-- The order in which a walk meets places: in every folder the files come before the folders. -/
def walkedBefore : Location → Location → Bool
  | [], _ => true
  | _ :: _, [] => false
  | [a], [b] => decide (a ≤ b)
  | [_], _ :: _ => true
  | _ :: _, [_] => false
  | a :: as, b :: bs => if a = b then walkedBefore as bs else decide (a ≤ b)

end ComponentDocs

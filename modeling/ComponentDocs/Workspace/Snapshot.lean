import ComponentDocs.Workspace.Basic

/-!
# Snapshots

Workspaces as records, with the tree of every source text.

* `SourceText.ofRecord`, `Workspace.ofRecord`: reading a snapshot;
* `Workspace.written`, `Workspace.dropped`: the files that differ from an earlier workspace.
-/

namespace ComponentDocs

/-- The text of a record with the fields `content`, `tree` and `parser_options`. -/
def SourceText.ofRecord (record : Record) : SourceText :=
  { content := (Record.text? record "content").getD "",
    tree := (Node.ofJson? (Record.get record "tree")).getD Node.empty,
    parser := .ofRecord (Record.object record "parser_options") }

/-- What a file holds when it is written out; a graph is written as a record. -/
def FileContent.writtenText : FileContent → String
  | text source => source.content
  | graph g => g.toJson.compactText

namespace Workspace

/-- A workspace in the folder with a path, with no files. -/
def inFolder (path : String) : Workspace :=
  let here := Path.names (Path.normalize path)
  { top := Entry.emptyFolder.put here .emptyFolder, here }

/-- The workspace with a file at a path; missing folders are made. -/
def place (w : Workspace) (path : String) (content : FileContent) : Workspace :=
  { w with top := w.top.put (Path.names (Path.absolute w.folder path)) (.file content) }

/-- The workspace without what is at a path. -/
def discard (w : Workspace) (path : String) : Workspace :=
  { w with top := w.top.remove (Path.names (Path.absolute w.folder path)) }

/-- The workspace of a record with the fields `folder` and `files`; every file has a `path`. -/
def ofRecord (record : Record) : Workspace :=
  (Record.list record "files").foldl
    (fun w file =>
      w.place ((Record.text? file.fields "path").getD "") (.text (SourceText.ofRecord file.fields)))
    (inFolder ((Record.text? record "folder").getD "/"))

/-- All files with their texts, by their paths seen from the folder of the workspace. -/
def texts (w : Workspace) : List (String × String) :=
  (w.filesBelow ".").map fun file => (String.intercalate "/" file.1, file.2.writtenText)

/-- The files with texts that an earlier workspace does not have. -/
def written (before after : Workspace) : List (String × String) :=
  after.texts.filter fun file => !before.texts.contains file

/-- The files of an earlier workspace that are gone. -/
def dropped (before after : Workspace) : List String :=
  (before.texts.map (·.1)).filter fun path => !(after.texts.map (·.1)).contains path

end Workspace

end ComponentDocs

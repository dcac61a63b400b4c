import ComponentDocs.Graph.Emission
import ComponentDocs.Metadata.Extraction

/-!
# Passes over files

One pass over a file: its components are extracted and their nodes emitted. A file that is rejected is
reported and emits nothing.

* `canParse`: the file may hold components;
* `fileRecord`: the record of a file on disk;
* `filePass`: the schema of a file, `FilePass`: what a pass did.
-/

namespace ComponentDocs

/-! ## Files -/

/-- The media types of files that may hold components. -/
def parseableMediaTypes : List String :=
  ["application/javascript", "text/javascript", "text/jsx", "text/tsx", "application/typescript",
   "text/typescript"]

/-- The extensions of files that may hold components. -/
def parseableExtensions : List String := ["js", "jsx", "mjs", "cjs", "ts", "tsx"]

/-- The file may hold components, by its media type or by its extension in any case. -/
def canParse (file : Record) : Bool :=
  ((Record.text? file "media_type").any parseableMediaTypes.contains)
    || ((Record.text? file "extension").any fun extension =>
      parseableExtensions.contains (String.ofList (Text.lower extension.toList)))

/-- The path of a file that starts with the name of its repository. -/
def repositoryPath (folder : String) (root : Option String) (path : String) : String :=
  match root.bind Method.nonEmpty? with
  | some root =>
    Path.forwardSlashes
      (Path.join (Path.baseName (Path.normalize root)) (Path.relative folder path root))
  | none => Path.forwardSlashes path

/-- The extension without its dot in lower case. -/
def bareExtension (path : String) : String :=
  String.ofList (Text.lower ((Path.extension path).toList.dropWhile (· = '.')))

/-- The record of a file; relative paths are seen from `folder`. -/
def fileRecord (folder : String) (root : Option String) (path : String) : Record :=
  let whole := Path.absolute folder path
  let shown := repositoryPath folder root whole
  [("id", .str shown), ("absolute_path", .str whole), ("relative_path", .str shown),
    ("extension", .str (bareExtension whole))]

/-! ## Passes -/

/-- What a pass did: the schema unless the file was left out or rejected, whether the content was
loaded, the log, and the number for the next file without a path. -/
structure FilePass where
  schema : Except Fault (Option Schema)
  loaded : Bool
  log : List LogEntry
  number : Nat

/-- How a file is called in a report. -/
def reportedName (file : Record) : String :=
  (((Record.filled? file "relative_path").or (Record.filled? file "absolute_path")).getD
    (Record.get file "id")).display

/-- The report on a rejected file. -/
def rejectionReport (file : Record) (rejection : Rejection) : LogEntry :=
  .error ("There was a problem parsing component metadata for file: \"" ++ reportedName file ++ "\"\n"
    ++ rejection.message ++ "\n" ++ rejection.excerpt.getD "")

/-- One pass over a file. -/
def filePass (createId : String → String) (file : Record) (content : String) (tree : Node)
    (options : ExtractionOptions) (number : Nat) : FilePass :=
  if canParse file then
    let outcome := extract content tree file options number
    let next := nextNumber file number
    match outcome.result with
    | .ok components => ⟨(emit createId file components).map some, true, outcome.log, next⟩
    | .error (.rejected rejection) =>
      ⟨.ok none, true, outcome.log ++ [rejectionReport file rejection], next⟩
    | .error fault => ⟨.error fault, true, outcome.log, next⟩
  else ⟨.ok none, false, [], number⟩

/-- The graph after a pass over a file. -/
def Graph.applyPass (g : Graph) (file : Record) (pass : FilePass) : Graph :=
  match pass.schema with
  | .ok (some schema) => g.replaceFileNodes (Record.get file "id").display file schema
  | _ => g

end ComponentDocs

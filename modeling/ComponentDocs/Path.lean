import ComponentDocs.Text.Lines

/-!
# Paths

File paths with forward slashes, treated as text: nothing is looked up, and `..` takes back the name
before it.

* `Path.join`, `Path.normalize`, `Path.absolute`, `Path.relative`;
* `Path.baseName`, `Path.folder`, `Path.splitExtension`;
* `Path.tidy`, `Path.inFolder`: paths that keep `..` as it stands;
* `Path.prefixes`: the paths of the folders on the way;
* `Path.forwardSlashes`: backslashes turned into slashes.
-/

namespace ComponentDocs

namespace Path

/-- The path starts at the root. -/
def isAbsolute (path : String) : Bool := path.toList.head? == some '/'

/-- The second path seen from the first. -/
def join (base path : String) : String :=
  if isAbsolute path then path
  else if base = "" ∨ base.toList.getLast? = some '/' then base ++ path
  else base ++ "/" ++ path

/-- The path with backslashes turned into slashes. -/
def forwardSlashes (path : String) : String :=
  String.ofList (path.toList.map fun c => if c = '\\' then '/' else c)

/-! ## Names along a path -/

/-- The names along a path, without empty ones. -/
def segments (path : String) : List (List Char) := (Text.splitAt '/' path.toList).filter (!·.isEmpty)

/-- The name of the folder itself. -/
def here : List Char := ['.']

/-- The name of the folder above. -/
def above : List Char := ['.', '.']

/-- One more name after the names `stack`, last first. Above the root there is the root. -/
def push (rooted : Bool) (stack : List (List Char)) (name : List Char) : List (List Char) :=
  if name = [] ∨ name = here then stack
  else if name ≠ above then name :: stack
  else match stack with
    | [] => if rooted then [] else [above]
    | top :: rest => if top = above then above :: stack else rest

/-- The names along a path after `.` and `..` are worked out. -/
def resolve (rooted : Bool) (names : List (List Char)) : List (List Char) :=
  (names.foldl (push rooted) []).reverse

/-- The slashes that a normal path keeps at its start: two stay two, more become one. -/
def leadingSlashes (path : String) : List Char :=
  match path.toList with
  | '/' :: '/' :: '/' :: _ => ['/']
  | '/' :: '/' :: _ => ['/', '/']
  | '/' :: _ => ['/']
  | _ => []

/-- The shortest path of the same meaning. -/
def normalize (path : String) : String :=
  let leading := leadingSlashes path
  let text := leading ++ Text.join ['/'] (resolve (!leading.isEmpty) (segments path))
  if text = [] then "." else String.ofList text

/-- The path from the root, normalized. -/
def absolute (folder path : String) : String :=
  normalize (if isAbsolute path then path else join folder path)

/-- How many names two lists share at the start. -/
def sharedLength : List (List Char) → List (List Char) → Nat
  | a :: as, b :: bs => if a = b then sharedLength as bs + 1 else 0
  | _, _ => 0

/-- The way from one list of names to another. -/
def wayTo (start target : List (List Char)) : List (List Char) :=
  let shared := sharedLength start target
  List.replicate (start.length - shared) above ++ target.drop shared

/-- The path seen from `start`; both are taken from `folder`. -/
def relative (folder path start : String) : String :=
  match wayTo (segments (absolute folder start)) (segments (absolute folder path)) with
  | [] => "."
  | names => String.ofList (Text.join ['/'] names)

/-! ## Paths as they stand -/

/-- The names along a path as strings. -/
def names (path : String) : List String := (segments path).map String.ofList

/-- The path without empty names and without `.`. -/
def tidy (path : String) : String :=
  let text := leadingSlashes path ++ Text.join ['/'] ((segments path).filter (· ≠ here))
  if text = [] then "." else String.ofList text

/-- The path of something in a folder whose path is tidy. -/
def inFolder (folder path : String) : String := if folder = "." then path else join folder path

/-- A name ends after so many characters. -/
def endsName (cs : List Char) (length : Nat) : Bool :=
  (cs.take length).getLast?.any (· ≠ '/') && (cs.drop length).head?.all (· = '/')

/-- The parts of a path that end with one of its names, the shortest first; the last is the whole path. -/
def prefixes (path : String) : List String :=
  let cs := path.toList
  let ends := (List.range (cs.length + 1)).filter (endsName cs)
  ends.dropLast.map (fun length => String.ofList (cs.take length)) ++ [path]

/-! ## Parts -/

/-- The text after the last slash. -/
def baseName (path : String) : String :=
  String.ofList (path.toList.reverse.takeWhile (· ≠ '/')).reverse

/-- The text up to the last slash, without slashes at its end unless there is nothing else. -/
def folder (path : String) : String :=
  let head := path.toList.reverse.dropWhile (· ≠ '/')
  match head.dropWhile (· = '/') with
  | [] => String.ofList head.reverse
  | rest => String.ofList rest.reverse

/-- The base name without dots at its start has a dot: the text before the last one and the text from
there on. Otherwise the extension is empty. -/
def splitExtension (path : String) : String × String :=
  let cs := path.toList.reverse
  let name := cs.takeWhile (· ≠ '/')
  let extension := name.takeWhile (· ≠ '.')
  match name.drop extension.length with
  | '.' :: stem =>
    if stem.all (· = '.') then (path, "")
    else (String.ofList (cs.drop (extension.length + 1)).reverse, String.ofList ('.' :: extension.reverse))
  | _ => (path, "")

/-- The extension of a path, with its dot. -/
def extension (path : String) : String := (splitExtension path).2

end Path

end ComponentDocs

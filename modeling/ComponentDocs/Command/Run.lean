import ComponentDocs.Batch.Build
import ComponentDocs.Batch.Rebuild
import ComponentDocs.Command.Task

/-!
# Running a command line

* `runTask`: the job of a task;
* `CommandResult`, `runCommand`: what a command line prints and reports, and how it ends.
-/

namespace ComponentDocs.Command

/-- What the options of a build say about extraction. Files are seen from the root unless another folder
is given. -/
def buildOptions (root : String) (folder language : Option String) (flow : Bool) : ExtractionOptions :=
  { ExtractionOptions.none with
    folder := some ((folder.bind Method.nonEmpty?).getD root), parser := ⟨language, flow⟩ }

/-- What a build says at its start. -/
def buildLines (root outputBase graphDir : String) (clear : Bool) : List String :=
  ["Extracting component metadata from: " ++ root, "Output base: " ++ outputBase,
   "Graph directory: " ++ graphDir, "Clear existing: " ++ (if clear then "True" else "False")]

/-- Does a task. -/
def runTask : Task → Job Unit
  | .build root outputBase graphDir clear folder language flow => do
    for line in buildLines root outputBase graphDir clear do
      Job.say line
    let _ ← buildAll
      { root, outputBase, graphDir, clear, options := buildOptions root folder language flow }
  | .rebuild outputBase graphDir root => do
    let _ ← rebuildGraph outputBase graphDir root

/-- How a command line ends: its exit code, what it prints, its errors and its log. -/
structure CommandResult where
  exit : Nat
  output : String
  errors : List String
  log : List LogEntry

/-- What is printed instead of the help text. -/
def usageText : String := "<usage>"

/-- The entries that are shown; those that only help to follow a run have to be asked for. -/
def shownLog (verbose : Bool) (log : List LogEntry) : List LogEntry :=
  log.filter fun entry => verbose || entry.level ≠ .debug

/-- Runs a task and says how it ends. -/
def runVerbosely (verbose : Bool) (task : Task) (session : Session) : CommandResult × Session :=
  match (runTask task).run session with
  | (.ok (), after) => (⟨0, after.output, [], shownLog verbose after.log⟩, after)
  | (.error fault, after) =>
    (⟨1, after.output, ["Error: " ++ fault.message], shownLog verbose (after.log ++ [.trace .debug])⟩, after)

/-- Runs a command line; the log and the printed lines of the session are its own. -/
def runCommand (arguments : List String) (session : Session) : CommandResult × Session :=
  match readInvocation arguments with
  | .error .help => (⟨0, usageText, [], []⟩, session)
  | .error .refused => (⟨2, "", [], []⟩, session)
  | .ok ⟨_, none⟩ => (⟨0, usageText, [], []⟩, session)
  | .ok ⟨verbose, some task⟩ => runVerbosely verbose task { session with log := [], printed := [] }

end ComponentDocs.Command

import ComponentDocs.Log
import ComponentDocs.Workspace.Basic

/-!
# Sessions

What runs over many files read and change: the files, the root that names the files, the log and the
text that was printed. A run that stops with a fault keeps what it did before.

* `Session`, `Job`;
* `Job.report`, `Job.say`, `Job.change`: log entries, printed lines and changed files.
-/

namespace ComponentDocs

/-- The state of a run. -/
structure Session where
  workspace : Workspace
  /-- The folder whose name the shown paths start with. -/
  root : Option String
  log : List LogEntry
  printed : List String

/-- The start of a run in a workspace. -/
def Session.start (workspace : Workspace) : Session := ⟨workspace, none, [], []⟩

/-- The printed lines as one text. -/
def Session.output (session : Session) : String := String.join (session.printed.map (· ++ "\n"))

/-- Work that changes a session and may stop with a fault. -/
abbrev Job := ExceptT Fault (StateM Session)

namespace Job

/-- Adds entries to the log. -/
def report (entries : List LogEntry) : Job Unit := modify fun s => { s with log := s.log ++ entries }

/-- Prints a line. -/
def say (line : String) : Job Unit := modify fun s => { s with printed := s.printed ++ [line] }

def setRoot (root : String) : Job Unit := modify fun s => { s with root := some root }

/-- Looks at the files. -/
def look {α : Type} (f : Workspace → Except Fault α) : Job α := do
  match f (← get).workspace with
  | .ok result => pure result
  | .error fault => throw fault

/-- Changes the files. -/
def change (f : Workspace → Except Fault Workspace) : Job Unit := do
  let workspace ← look f
  modify fun s => { s with workspace }

end Job

end ComponentDocs

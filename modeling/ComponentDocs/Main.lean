import ComponentDocs.Command.Run
import ComponentDocs.Workspace.Snapshot

/-!
# The program

Runs a command line on a snapshot of the working folder, read from standard input, and writes the files
that the run made or changed.
-/

open ComponentDocs

/-- Prints what a command line has to say. -/
def printResult (result : Command.CommandResult) : IO Unit := do
  IO.print result.output
  for entry in result.log do
    IO.eprintln (entry.level.name ++ " " ++ entry.text)
  for line in result.errors do
    IO.eprintln line

/-- Brings the working folder from one workspace to another. -/
def storeChanges (before after : Workspace) : IO Unit := do
  for path in Workspace.dropped before after do
    IO.FS.removeFile path
  for file in Workspace.written before after do
    IO.FS.createDirAll (parentFolder file.1)
    IO.FS.writeFile file.1 file.2

def main (arguments : List String) : IO UInt32 := do
  let input ← (← IO.getStdin).readToEnd
  match Json.read input with
  | .error failure =>
    IO.eprintln failure.message
    return 1
  | .ok snapshot =>
    let before := Workspace.ofRecord snapshot.fields
    let (result, session) := Command.runCommand arguments (Session.start before)
    printResult result
    storeChanges before session.workspace
    return result.exit.toUInt32

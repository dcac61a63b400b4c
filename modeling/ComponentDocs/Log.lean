/-!
# Log entries

What a run has to say beside its results.

* `Level`, `LogEntry`;
* `LogEntry.sort`: entries by level and text, the order in which runs are compared.
-/

namespace ComponentDocs

/-- How important an entry is. -/
inductive Level where
  | debug
  | error
deriving DecidableEq, Repr

def Level.name : Level → String
  | debug => "DEBUG"
  | error => "ERROR"

/-- A line of the log. -/
structure LogEntry where
  level : Level
  text : String
deriving DecidableEq, Repr

namespace LogEntry

/-- An entry that helps to follow a run. -/
def debug (text : String) : LogEntry := ⟨.debug, text⟩

/-- An entry about a failure. -/
def error (text : String) : LogEntry := ⟨.error, text⟩

/-- The entry that stands for the trace of a failure. -/
def trace (level : Level) : LogEntry := ⟨level, "<traceback>"⟩

/-- The order by level and then text. -/
def isBefore (a b : LogEntry) : Bool :=
  if a.level.name = b.level.name then decide (a.text ≤ b.text) else decide (a.level.name ≤ b.level.name)

/-- The entries by level and text. -/
def sort (entries : List LogEntry) : List LogEntry := entries.mergeSort isBefore

end LogEntry

end ComponentDocs

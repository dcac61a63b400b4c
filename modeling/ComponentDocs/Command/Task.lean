import ComponentDocs.Command.Option

/-!
# Tasks

What a command line asks for.

* `Task`: to build the documentation of a folder, or to rebuild the graph of an earlier run;
* `Invocation`, `readInvocation`: a command line as a whole.
-/

namespace ComponentDocs.Command

/-- What is to be done. -/
inductive Task where
  /-- Extract the components of all files below a root. -/
  | build (root outputBase graphDir : String) (clear : Bool) (folder language : Option String) (flow : Bool)
  /-- Make the graph of component files. -/
  | rebuild (outputBase graphDir : String) (root : Option String)
deriving DecidableEq, Repr

/-- A command line: whether the log is to be complete, and the task if there is one. -/
structure Invocation where
  verbose : Bool
  task : Option Task
deriving DecidableEq, Repr

/-! ## Arguments of a task -/

/-- What was read of the arguments of a task; `extra` says that something was left over. -/
structure Arguments where
  given : List Given
  operand : Option String
  extra : Bool

namespace Arguments

/-- Nothing was read. -/
def none : Arguments := ⟨[], .none, false⟩

/-- The arguments with an operand; there is room for one. -/
def addOperand (found : Arguments) (text : String) : Arguments :=
  if found.operand.isSome then { found with extra := true } else { found with operand := some text }

/-- The arguments with an option. -/
def give (found : Arguments) (option : Given) : Arguments := { found with given := found.given ++ [option] }

/-- The value of an option; the last one counts. -/
def value? (found : Arguments) (key : String) : Option String :=
  (found.given.reverse.find? (·.1 = key)).map (·.2)

/-- The option was given. -/
def has (found : Arguments) (key : String) : Bool := (found.value? key).isSome

/-- The arguments with those of more words. A separator belongs to the operand before or after it. -/
def read (found : Arguments) : List Word → Except Stop Arguments
  | [] => .ok found
  | .separator :: .operand text :: rest =>
    if found.operand.isSome then read { found with extra := true } rest
    else read (found.addOperand text) rest
  | .operand text :: .separator :: rest =>
    if found.operand.isSome then read { found with extra := true } rest
    else read (found.addOperand text) rest
  | .operand text :: rest => read (found.addOperand text) rest
  | .separator :: rest => read { found with extra := true } rest
  | .unknown _ :: rest => read { found with extra := true } rest
  | .option _ ⟨names, .value choices⟩ .none :: .operand text :: rest => do
    let value ← checkChoice choices text
    read (found.give (names.headD "", value)) rest
  | .option argument rule attached :: rest => do
    read (found.give (← ownValue argument rule attached)) rest

/-- The operand and the options, if nothing is missing or left over. -/
def complete (found : Arguments) : Except Stop String :=
  match found.operand, found.extra with
  | some operand, false => .ok operand
  | _, _ => .error .refused

end Arguments

/-! ## Tasks -/

/-- The folder for component files unless another is given. -/
def standardOutput : String := "./output/components"

/-- The folder for the graph unless another is given. -/
def standardGraph : String := "./output/graph"

def buildRules : List OptionRule :=
  [.forHelp, ⟨["--output_base"], .value []⟩, ⟨["--graph_dir"], .value []⟩, ⟨["--no_clear"], .nothing⟩,
   ⟨["--cwd"], .value []⟩, ⟨["--language"], .value ["javascript", "typescript", "tsx"]⟩,
   ⟨["--flow"], .nothing⟩]

def rebuildRules : List OptionRule :=
  [.forHelp, ⟨["--graph_dir"], .value []⟩, ⟨["--root_dir"], .value []⟩]

/-- The build that arguments ask for. -/
def readBuild (arguments : List String) : Except Stop Task := do
  let found ← Arguments.none.read (← readWords buildRules arguments)
  let root ← found.complete
  pure (.build root ((found.value? "--output_base").getD standardOutput)
    ((found.value? "--graph_dir").getD standardGraph) (!found.has "--no_clear") (found.value? "--cwd")
    (found.value? "--language") (found.has "--flow"))

/-- The rebuild that arguments ask for. -/
def readRebuild (arguments : List String) : Except Stop Task := do
  let found ← Arguments.none.read (← readWords rebuildRules arguments)
  let outputBase ← found.complete
  pure (.rebuild outputBase ((found.value? "--graph_dir").getD standardGraph) (found.value? "--root_dir"))

def readTask (name : String) (arguments : List String) : Except Stop Task :=
  match name with
  | "create_component_data" => readBuild arguments
  | "create_graph" => readRebuild arguments
  | _ => .error .refused

/-! ## Command lines -/

/-- The options before the task. -/
def commonRules : List OptionRule := [.forHelp, ⟨["--verbose"], .nothing⟩]

/-- The invocation of words: options, and from the first operand on a task with its arguments. -/
def chooseTask (verbose extra : Bool) : List Word → Except Stop Invocation
  | [] => if extra then .error .refused else .ok ⟨verbose, none⟩
  | .operand name :: rest => do
    let task ← readTask name (rest.map Word.text)
    if extra then .error .refused else .ok ⟨verbose, some task⟩
  | .separator :: _ => .error .refused
  | .unknown _ :: rest => chooseTask verbose true rest
  | .option argument rule attached :: rest => do
    let _ ← ownValue argument rule attached
    chooseTask true extra rest

/-- What a command line asks for. -/
def readInvocation (arguments : List String) : Except Stop Invocation := do
  chooseTask false false (← readWords commonRules arguments)

end ComponentDocs.Command

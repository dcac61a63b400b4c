import ComponentDocs.Text.Word

/-!
# Options of a command line

Arguments are read one after the other. An option may be shortened as long as one option remains, and
its value may be attached with an equals sign.

* `OptionRule`, `Demand`: an option and what it wants;
* `Word`, `readWords`: what the arguments are;
* `Stop`: why no command is run;
* `ownValue`: an option with the value that is attached to it.
-/

namespace ComponentDocs.Command

/-! ## Rules -/

/-- What an option wants. -/
inductive Demand where
  /-- No value. -/
  | nothing
  /-- A value, one of some choices if there are any. -/
  | value (choices : List String)
  /-- No value, and help is all that is done. -/
  | help
deriving DecidableEq, Repr

/-- An option with the names it is given by; the first is the name under which it is kept. -/
structure OptionRule where
  names : List String
  demand : Demand
deriving DecidableEq, Repr

/-- The name under which an option is kept. -/
def OptionRule.key (rule : OptionRule) : String := rule.names.headD ""

/-- The option that asks for help. -/
def OptionRule.forHelp : OptionRule := ⟨["--help", "-h"], .help⟩

/-- Why no command is run: help was asked for, or the arguments are refused. -/
inductive Stop where
  | help
  | refused
deriving DecidableEq, Repr

/-! ## Words -/

/-- What an argument is. -/
inductive Word where
  | operand (text : String)
  /-- Two dashes, after which there are only operands. -/
  | separator
  /-- An option with the value that is attached. -/
  | option (text : String) (rule : OptionRule) (attached : Option String)
  | unknown (text : String)
deriving DecidableEq, Repr

/-- The argument of a word. -/
def Word.text : Word → String
  | operand text => text
  | separator => "--"
  | option text _ _ => text
  | unknown text => text

def namedRules (rules : List OptionRule) : List (String × OptionRule) :=
  rules.flatMap fun rule => rule.names.map fun name => (name, rule)

/-- The text before the first equals sign and the text after it, if there is one. -/
def splitValue (argument : String) : String × Option String :=
  let cs := argument.toList
  let name := String.ofList (cs.takeWhile (· ≠ '='))
  match cs.dropWhile (· ≠ '=') with
  | _ :: value => (name, some (String.ofList value))
  | [] => (name, none)

/-- The options that a shortened name may mean. -/
def longCandidates (rules : List OptionRule) (argument : String) : List Word :=
  let (start, value) := splitValue argument
  ((namedRules rules).filter fun named => start.toList.isPrefixOf named.1.toList).map fun named =>
    .option argument named.2 value

/-- The options with a name of one dash and one character in front of an argument. -/
def shortCandidates (rules : List OptionRule) (argument : String) : List Word :=
  let cs := argument.toList
  (namedRules rules).filterMap fun named =>
    if named.1.toList = cs.take 2 then
      some (.option argument named.2 (some (String.ofList (cs.drop 2))))
    else if cs.isPrefixOf named.1.toList then some (.option argument named.2 none)
    else none

/-- The digits of a number with or without a point. -/
def isUnsigned (cs : List Char) : Bool :=
  let whole := cs.takeWhile Text.isDigit
  match cs.dropWhile Text.isDigit with
  | [] => !whole.isEmpty
  | '.' :: places => !places.isEmpty && places.all Text.isDigit
  | _ => false

/-- The argument is a negative number or has a blank in it, so it is no option. -/
def isValueLike (cs : List Char) : Bool := isUnsigned (cs.drop 1) || cs.contains ' '

/-- The word of an argument that starts with a dash and goes on, and is no full name of an option. -/
def shortenedWord (rules : List OptionRule) (argument : String) : Except Stop Word :=
  let cs := argument.toList
  let candidates :=
    if (cs.drop 1).head? = some '-' then longCandidates rules argument else shortCandidates rules argument
  match candidates with
  | [word] => .ok word
  | _ :: _ :: _ => .error .refused
  | [] => .ok (if isValueLike cs then .operand argument else .unknown argument)

def readWord (rules : List OptionRule) (argument : String) : Except Stop Word :=
  let find (name : String) := (namedRules rules).find? (·.1 = name)
  match argument.toList with
  | '-' :: _ :: _ =>
    match find argument, find (splitValue argument).1, (splitValue argument).2 with
    | some named, _, _ => .ok (.option argument named.2 none)
    | none, some named, some value => .ok (.option argument named.2 (some value))
    | none, _, _ => shortenedWord rules argument
  | _ => .ok (.operand argument)

/-- The words of arguments. -/
def readWords (rules : List OptionRule) : List String → Except Stop (List Word)
  | [] => .ok []
  | argument :: rest =>
    if argument = "--" then .ok (.separator :: rest.map .operand)
    else do pure ((← readWord rules argument) :: (← readWords rules rest))

/-! ## Values -/

/-- An option that was given, with its value; an option without a value has an empty one. -/
abbrev Given := String × String

/-- A value that is one of the choices. -/
def checkChoice (choices : List String) (value : String) : Except Stop String :=
  if choices.isEmpty || choices.contains value then .ok value else .error .refused

/-- Text attached to the short name of the option for help still asks for help, unless it starts like a
value or like an option after any repetitions of the name. -/
def stillHelp (argument : String) : Bool :=
  match argument.toList with
  | '-' :: 'h' :: attached => ((attached.dropWhile (· = 'h')).head?).all fun c => c ≠ '=' ∧ c ≠ '-'
  | _ => false

/-- An option, given by an argument, with the value that is attached to it; an option without a value has
none. -/
def ownValue (argument : String) (rule : OptionRule) (attached : Option String) : Except Stop Given :=
  match rule.demand, attached with
  | .nothing, none => .ok (rule.key, "")
  | .value choices, some text => (checkChoice choices text).map fun value => (rule.key, value)
  | .help, none => .error .help
  | .help, some _ => .error (if stillHelp argument then .help else .refused)
  | _, _ => .error .refused

end ComponentDocs.Command

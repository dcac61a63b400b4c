import ComponentDocs.Doclet.Basic
import ComponentDocs.Json.Printer
import ComponentDocs.Log
import ComponentDocs.Text.Case

/-!
# Overriding doclets

Some doclets of a prop override its structured fields: `@type`, `@required`, `@default` and
`@defaultValue`. Of several doclets for one field the last counts.

* `WrittenType.parse`: the type that a `@type` value writes: a name, a list of literals or a union;
* `Json.copied`: a record made of a value;
* `Doclet.override`: one doclet applied to a prop;
* `Doclet.overrideAll`: all doclets of a prop, and the type from its annotation if it has none yet;
* `Doclet.overrideLog`: what is said about values that are kept as they are.
-/

namespace ComponentDocs

open Text

/-! ## Literals -/

/-- A text between two quotes of one kind. -/
def isQuoted (cs : List Char) : Bool :=
  match cs with
  | mark :: rest =>
    (mark == '"' || mark == '\'' || mark == '\x60') && rest.getLast? == some mark && !rest.dropLast.contains '\n'
  | [] => false

/-- Digits, at least one. -/
def isDigits (cs : List Char) : Bool := !cs.isEmpty && cs.all isDigit

/-- A decimal number. -/
def isNumber (cs : List Char) : Bool :=
  let unsigned := match cs with
    | '-' :: rest => rest
    | _ => cs
  match splitAt '.' unsigned with
  | [whole] => isDigits whole
  | [whole, places] => isDigits whole && isDigits places
  | _ => false

/-- A quoted text, a decimal number, a truth value or null. -/
def isLiteral (cs : List Char) : Bool :=
  isQuoted cs || isNumber cs || cs == "true".toList || cs == "false".toList || cs == "null".toList

/-! ## Written types -/

/-- The type that a `@type` value writes. -/
inductive WrittenType where
  | name (text : String)
  | enum (members : List String)
  | union (members : List String)
deriving DecidableEq, Repr

namespace WrittenType

/-- The type as a record. -/
def toJson : WrittenType → Json
  | name text => .obj [("name", .str text)]
  | enum members =>
    .obj [("name", .str "enum"),
      ("value", .arr (members.map fun m => .obj [("value", .str m), ("computed", .bool false)]))]
  | union members =>
    .obj [("name", .str "union"), ("value", .arr (members.map fun m => .obj [("name", .str m)]))]

/-- As many braces and as many parentheses are opened as closed. -/
def isBalanced (cs : List Char) : Bool :=
  cs.count '\x7b' == cs.count '\x7d' && cs.count '(' == cs.count ')'

/-- The text between a first and a last character. -/
def between? (first last : Char) (cs : List Char) : Option (List Char) :=
  match cs with
  | c :: rest => if c = first ∧ rest.getLast? = some last then some rest.dropLast else none
  | [] => none

/-- The value without blanks and without one pair of braces around it. -/
def unbrace (cs : List Char) : List Char :=
  match between? '\x7b' '\x7d' (trim cs) with
  | some inner => trim inner
  | none => trim cs

/-- The members of a list separated by bars, without blanks and empty members. -/
def members (cs : List Char) : List (List Char) := ((splitAt '|' cs).map trim).filter (!·.isEmpty)

/-- The type that a list of members writes: an enum of literals, a union otherwise. -/
def ofMembers (found : List (List Char)) : WrittenType :=
  if !found.isEmpty && found.all isLiteral then enum (found.map String.ofList)
  else union (found.map String.ofList)

/-- The type that a value writes. A value with unbalanced brackets is a name as it stands. -/
def parse (value : String) : WrittenType :=
  let cs := value.toList
  if !isBalanced cs then name (trimString value)
  else match between? '(' ')' (unbrace cs) with
    | some inner => ofMembers (members inner)
    | none => name (String.ofList (unbrace cs))

end WrittenType

/-! ## Copies -/

namespace Json

/-- A value as the name of a field. A text stands for itself, any other value as it is written; lists and objects are
no names. -/
def asName : Json → Except ValueProblem String
  | str text => .ok text
  | arr items => .error (.unhashable (arr items).typeName)
  | obj fields => .error (.unhashable (obj fields).typeName)
  | value => .ok value.compactText

/-- The field that the item at a place of a list makes: it has to hold a name and a value. -/
def asField (index : Nat) : Json → Except ValueProblem (String × Json)
  | arr [name, value] => return (← name.asName, value)
  | arr items => .error (.badPair index items.length)
  | obj [name, value] => .ok (name.1, .str value.1)
  | obj fields => .error (.badPair index fields.length)
  | str text =>
    match text.toList with
    | [name, value] => .ok (name.toString, .str value.toString)
    | cs => .error (.badPair index cs.length)
  | _ => .error (.notPair index)

/-- A record made of a value: a copy of a record, or what a list of names and values makes. -/
def copied : Json → Except ValueProblem Record
  | obj fields => .ok fields
  | arr items => Fields.ofList <$> items.zipIdx.mapM fun item => asField item.2 item.1
  | str text => if text = "" then .ok [] else .error (.badPair 0 1)
  | value => .error (.notIterable value.typeName)

end Json

/-! ## Applying doclets -/

namespace Doclet

/-- The value of a `@required` doclet: everything but `false` requires the prop. Only ASCII letters are
lowered to the letters of that word. -/
def requires (value : String) : Bool := (trim value.toList).map Char.toLower ≠ "false".toList

/-- A default that is written in the source or in a doclet. -/
def defaultValue (value : String) (computed : Bool) : Json :=
  .obj [("value", .str value), ("computed", .bool computed)]

/-- One doclet applied to a prop. -/
def override (prop : Record) (doclet : Doclet) : Record :=
  if doclet.tag = "type" then Fields.set prop "type" (WrittenType.parse doclet.value).toJson
  else if doclet.tag = "required" then Fields.set prop "required" (.bool (requires doclet.value))
  else if (doclet.tag = "default" ∨ doclet.tag = "defaultValue") ∧ doclet.value ≠ "" then
    Fields.set prop "defaultValue" (defaultValue doclet.value false)
  else prop

def annotatedType? (prop : Record) : Option Json :=
  match Record.get prop "flowType", Record.get prop "tsType" with
  | .null, .null => none
  | .null, type => some type
  | type, _ => some type

/-- A prop without a type takes a copy of the annotated one. -/
def settleType (prop : Record) : Except Fault Record :=
  match Record.get prop "type", annotatedType? prop with
  | .null, some type => do
    let copy ← type.copied.mapError Fault.value
    pure (Fields.set prop "type" (.obj copy))
  | _, _ => .ok prop

/-- All doclets applied to a prop in order, and the type settled. -/
def overrideAll (prop : Record) (doclets : List Doclet) : Except Fault Record :=
  settleType (doclets.foldl override prop)

/-- What is said about the `@type` values that are kept as they are. -/
def overrideLog (doclets : List Doclet) : List LogEntry :=
  (doclets.filter fun d => d.tag == "type" && !WrittenType.isBalanced d.value.toList).map fun d =>
    .debug ("unbalanced @type value " ++ quote d.value ++ ", storing it as-is")

/-- What is said about the doclets found under a name. -/
def foundLog (name : String) (doclets : List Doclet) : List LogEntry :=
  if name = "" ∨ doclets = [] then []
  else [.debug (name ++ ": " ++ toString doclets.length ++ " doclet(s)")]

def ofRecord (record : Record) : Except Fault Doclet := do
  pure { tag := ← Record.requireText record "tag", value := ← Record.requireText record "value" }

/-- The doclets that a prop already carries. -/
def ofProp (prop : Record) : Except Fault (List Doclet) :=
  (Record.list prop "doclets").mapM fun doclet => ofRecord doclet.fields

end Doclet

end ComponentDocs

import ComponentDocs.Text.Blank
import ComponentDocs.Text.Lines
import ComponentDocs.Text.Word

/-!
# Signature doclets

The values of `@param` and `@returns` doclets: an optional type in braces, for a parameter its name,
an optional dash, and a description.

* `ParamText.parse`: the parts of a `@param` value, `ParamText.target`: the parameter it names;
* `ReturnsText.parse`: the parts of a `@returns` value.
-/

namespace ComponentDocs

open Text

/-- The type in braces at the start, and the text after it and the blanks behind it. -/
def bracedType (cs : List Char) : Option (List Char) × List Char :=
  match cs with
  | '\x7b' :: rest =>
    match rest.dropWhile (· ≠ '\x7d') with
    | _ :: after => (some (rest.takeWhile (· ≠ '\x7d')), trimStart after)
    | [] => (none, cs)
  | _ => (none, cs)

/-! ## Parameters -/

/-- The parts of a `@param` value. -/
structure ParamText where
  type : Option (List Char)
  name : Option (List Char)
  description : List Char

/-- A character of a parameter's name. -/
def isNameChar (c : Char) : Bool := isWord c || c == '$' || c == '.'

/-- The name at the start: a text in square brackets or a run of name characters. -/
def paramName (cs : List Char) : Option (List Char) × List Char :=
  match cs with
  | '[' :: rest =>
    match rest.dropWhile (· ≠ ']') with
    | _ :: after => (some ('[' :: rest.takeWhile (· ≠ ']') ++ [']']), after)
    | [] => (none, cs)
  | _ =>
    match cs.takeWhile isNameChar with
    | [] => (none, cs)
    | name => (some name, cs.dropWhile isNameChar)

/-- The text after blanks, and after a dash and the blanks behind it. -/
def skipDash (cs : List Char) : List Char :=
  match trimStart cs with
  | '-' :: rest => trimStart rest
  | rest => rest

namespace ParamText

/-- The parts of a `@param` value. -/
def parse (value : String) : ParamText :=
  let (type, rest) := bracedType value.toList
  let (name, rest) := paramName rest
  { type, name, description := skipDash rest }

/-- A square bracket. -/
def isBracket (c : Char) : Bool := c == '[' || c == ']'

/-- The parameter that a written name stands for: without brackets and without a default. -/
def target (written : List Char) : String :=
  String.ofList (((written.dropWhile isBracket).reverse.dropWhile isBracket).reverse.takeWhile (· ≠ '='))

/-- A name in brackets is optional. -/
def isOptional (written : List Char) : Bool := written.head? == some '['

end ParamText

/-! ## Returned values -/

/-- The parts of a `@returns` value. -/
structure ReturnsText where
  type : Option (List Char)
  description : List Char

/-- The parts of a `@returns` value. -/
def ReturnsText.parse (value : String) : ReturnsText :=
  let (type, description) := bracedType value.toList
  { type, description }

end ComponentDocs

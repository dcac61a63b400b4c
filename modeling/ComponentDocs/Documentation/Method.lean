import ComponentDocs.Component.Definition
import ComponentDocs.Descriptor.PropsType
import ComponentDocs.Doclet.Basic
import ComponentDocs.Doclet.Signature

/-!
# Methods

The methods of a component: their signatures, and what their docblocks add. A signature is never
overruled by a docblock; what a docblock adds stands in the order in which it came.

* `Param`, `Returns`, `Method`, `Method.toJson`;
* `Method.ofFunction`: a method with the signature of a function node;
* `Method.document`: a method with what its docblock says.
-/

namespace ComponentDocs

/-! ## Signatures -/

/-- What is noted about a parameter. -/
inductive ParamNote where
  | isOptional
  | description (text : String)
deriving DecidableEq, Repr

/-- A parameter, with its notes in the order in which their kinds first came. -/
structure Param where
  name : String
  type : Option TypeDescriptor
  notes : List ParamNote
deriving Repr

/-- What is noted about a returned value. -/
inductive ReturnsNote where
  | type (type : TypeDescriptor)
  | description (text : String)
deriving Repr

/-- A returned value: its notes in the order in which their kinds first came. -/
abbrev Returns := List ReturnsNote

/-- A method of a component. Nothing noted about the returned value means that nothing is known of it. -/
structure Method where
  name : String
  docblock : Option String
  modifiers : List String
  params : List Param
  returns : Returns
  description : Option String
deriving Repr

/-! ## Records -/

def ParamNote.field : ParamNote → String × Json
  | isOptional => ("optional", .bool true)
  | description text => ("description", .str text)

def ReturnsNote.field : ReturnsNote → String × Json
  | type t => ("type", t.toJson)
  | description text => ("description", .str text)

/-- The record of a parameter. -/
def Param.toJson (param : Param) : Json :=
  .obj (("name", .str param.name) :: ("type", (param.type.map TypeDescriptor.toJson).getD .null)
    :: param.notes.map ParamNote.field)

/-- The record of a returned value, null if nothing is known. -/
def Returns.toJson (returns : Returns) : Json :=
  if returns.isEmpty then .null else .obj (returns.map ReturnsNote.field)

/-- The record of a method. -/
def Method.toJson (method : Method) : Json :=
  .obj [("name", .str method.name), ("docblock", .ofText? method.docblock),
    ("modifiers", .arr (method.modifiers.map .str)), ("params", .arr (method.params.map Param.toJson)),
    ("returns", Returns.toJson method.returns), ("description", .ofText? method.description)]

/-! ## Notes -/

namespace Param

/-- The parameter may be left out. -/
def markOptional (param : Param) : Param :=
  if param.notes.contains .isOptional then param else { param with notes := param.notes ++ [.isOptional] }

/-- The notes with a description, in place of an earlier one or at the end. -/
def putDescription (text : String) : List ParamNote → List ParamNote
  | [] => [.description text]
  | .description _ :: rest => .description text :: rest
  | note :: rest => note :: putDescription text rest

/-- The parameter with a description. -/
def describe (param : Param) (text : String) : Param :=
  { param with notes := putDescription text param.notes }

end Param

namespace Returns

/-- The type of the returned value. -/
def type? (returns : Returns) : Option TypeDescriptor :=
  returns.findSome? fun
    | .type t => some t
    | .description _ => none

/-- The returned value with a type, unless it has one. -/
def withType (returns : Returns) (type : TypeDescriptor) : Returns :=
  if (type? returns).isSome then returns else returns ++ [.type type]

/-- The notes with a description, in place of an earlier one or at the end. -/
def describe (text : String) : Returns → Returns
  | [] => [.description text]
  | .description _ :: rest => .description text :: rest
  | note :: rest => note :: describe text rest

end Returns

/-! ## From the source -/

namespace Param

/-- The parameter at a node. -/
def ofNode (src : SourceFile) (c : Cursor) : Param :=
  let text := src.text c.node
  if parameterKinds.contains c.kind then
    let optional := c.kind == "optional_parameter" || (c.node.child? "value").isSome
    { name := (src.text? (c.node.child? "pattern")).getD text,
      type := (c.node.child? "type").map fun type => src.describeType (some type),
      notes := if optional then [.isOptional] else [] }
  else if c.kind = "assignment_pattern" then
    { name := (src.text? (c.node.child? "left")).getD text, type := none, notes := [.isOptional] }
  else { name := text, type := none, notes := [] }

/-- The parameters of a function. -/
def ofFunction (src : SourceFile) (function : Cursor) : List Param :=
  match function.child? "parameters", function.node.child? "parameter" with
  | some parameters, _ =>
    (parameters.namedChildren.filter fun c => !c.node.isComment).map (ofNode src)
  | none, some single => [{ name := src.text single, type := none, notes := [] }]
  | none, none => []

end Param

/-- The modifiers among the children of a node. -/
def modifiersOf (c : Cursor) : List String :=
  c.node.children.filterMap fun child =>
    if ["static", "async", "get", "set"].contains child.kind then some child.kind
    else if child.kind = "*" then some "generator"
    else none

namespace Method

/-- The method of a name with the signature of a function node. -/
def ofFunction (src : SourceFile) (name : String) (function : Option Cursor) (docblock : Option String)
    (modifiers : List String) : Method :=
  { name, docblock, modifiers,
    params := (function.map (Param.ofFunction src)).getD [],
    returns := match function.bind fun f => f.node.child? "return_type" with
      | some type => [.type (src.describeType (some type))]
      | none => [],
    description := none }

/-! ## From the docblock -/

/-- The text without blanks at its ends, as a string. -/
def trimmed (cs : List Char) : String := String.ofList (Text.trim cs)

/-- The type of a written text, if there is one. -/
def writtenType? (cs : Option (List Char)) : Option TypeDescriptor :=
  (cs.filter (!·.isEmpty)).map fun text => .simple (trimmed text)

/-- The parameter with what a `@param` value says about it. -/
def applyParamText (text : ParamText) (optional : Bool) (param : Param) : Param :=
  let typed := { param with type := param.type.or (writtenType? text.type) }
  let described := if text.description.isEmpty then typed else typed.describe (trimmed text.description)
  if optional then described.markOptional else described

/-- The parameters, the last of a name changed. -/
def changeLast (name : String) (f : Param → Param) : List Param → List Param
  | [] => []
  | param :: rest =>
    if param.name = name ∧ !rest.any (·.name == name) then f param :: rest
    else param :: changeLast name f rest

/-- The method with what a `@param` value says. -/
def applyParam (method : Method) (value : String) : Method :=
  let text := ParamText.parse value
  match text.name with
  | none => method
  | some written =>
    { method with
      params := changeLast (ParamText.target written)
        (applyParamText text (ParamText.isOptional written)) method.params }

/-- The method with what a `@returns` value says. -/
def applyReturns (method : Method) (value : String) : Method :=
  let text := ReturnsText.parse value
  let typed := match writtenType? text.type with
    | some type => Returns.withType method.returns type
    | none => method.returns
  { method with
    returns := if text.description.isEmpty then typed else Returns.describe (trimmed text.description) typed }

/-- The method with what a doclet says. -/
def applyDoclet (method : Method) (doclet : Doclet) : Method :=
  if doclet.tag = "param" then method.applyParam doclet.value
  else if doclet.tag = "returns" ∨ doclet.tag = "return" then method.applyReturns doclet.value
  else method

def nonEmpty? (text : String) : Option String := if text = "" then none else some text

/-- The method with what its docblock says. -/
def document (method : Method) : Method :=
  match method.docblock.bind nonEmpty? with
  | none => method
  | some docblock =>
    (Doclet.parse docblock).foldl applyDoclet { method with description := nonEmpty? (Doclet.clean docblock) }

end Method

end ComponentDocs

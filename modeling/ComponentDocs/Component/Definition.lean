import ComponentDocs.Source.Bindings
import ComponentDocs.Text.Quoted

/-!
# Component definitions

A node that defines a component, and what can be looked up on it.

* `DefinitionKind`, `Definition`: a class, a specification object or a function, with its binding;
* `Definition.member?`: the value of a static member or of a key of the specification;
* `Definition.specMethod?`, `Definition.propsParameter?`, `returnedValue`.
-/

namespace ComponentDocs

/-! ## Kinds of nodes -/

/-- The kinds of class nodes. -/
def classKinds : List String := ["class_declaration", "class", "abstract_class_declaration"]

/-- The kinds of function nodes. -/
def functionKinds : List String :=
  ["function_declaration", "function", "function_expression", "arrow_function"]

/-- The kinds of fields of a class. -/
def fieldKinds : List String := ["field_definition", "public_field_definition"]

/-- The node is a function. -/
def Cursor.isFunction (c : Cursor) : Bool := functionKinds.contains c.kind

/-- The node is a field of a class. -/
def Cursor.isField (c : Cursor) : Bool := fieldKinds.contains c.kind

/-- The node is a method. -/
def Cursor.isMethod (c : Cursor) : Bool := c.kind == "method_definition"

/-- The name of a field of a class. -/
def Cursor.fieldName? (c : Cursor) : Option Node := (c.node.child? "property").or (c.node.child? "name")

/-! ## Definitions -/

/-- How a component is defined. -/
inductive DefinitionKind where
  | byClass
  | bySpecification
  | byFunction
deriving DecidableEq, Repr

def DefinitionKind.name : DefinitionKind → String
  | byClass => "class"
  | bySpecification => "create_class"
  | byFunction => "function"

/-- The class, specification object or function that defines a component, the name it is bound to, and
whether it is exported. -/
structure Definition where
  kind : DefinitionKind
  place : Cursor
  name : Option String
  exported : Bool

/-- The expression of the first `return` among the statements of a body. -/
def returnedValue (body : Cursor) : Option Cursor :=
  (body.namedChildren.find? (·.kind == "return_statement")).bind (·.parts.head?)

namespace Definition

variable (src : SourceFile) (definition : Definition)

/-- The definition in one line. -/
def describe : String :=
  let name := match definition.name with
    | some name => Text.quote name
    | none => "None"
  "ComponentDefinition(kind=" ++ Text.quote definition.kind.name ++ ", name=" ++ name ++ ", line="
    ++ toString (src.row definition.place.node.start + 1) ++ ")"

/-- The name inside the definition itself. -/
def ownName : Option String :=
  if definition.kind = .bySpecification then none
  else src.text? (definition.place.node.child? "name")

/-- The members of the class body. -/
def classMembers : List Cursor :=
  if definition.kind = .byClass then ((definition.place.child? "body").map (·.namedChildren)).getD []
  else []

/-- The keyed values and methods of the specification object. -/
def specMembers : List Cursor :=
  if definition.kind = .bySpecification then
    definition.place.namedChildren.filter fun c => c.kind == "pair" || c.isMethod
  else []

/-! ## Members -/

/-- The value that a class member gives a static member: `some none` if it gives it none. -/
def staticValue? (member : String) (c : Cursor) : Option (Option Cursor) :=
  if c.isField ∧ c.hasToken "static" ∧ src.text? c.fieldName? = some member then some (c.child? "value")
  else if c.isMethod ∧ c.hasToken "static" ∧ src.fieldIs c.node "name" member then
    some ((c.child? "body").bind returnedValue)
  else none

/-- The key of a keyed value has this text without its quotes. -/
def keyIs (member : String) (c : Cursor) : Bool :=
  ((c.node.child? "key").map fun key => Text.unquote (src.text key)) == some member

/-- The value that a keyed value of the specification gives a key. -/
def specValue? (member : String) (c : Cursor) : Option (Option Cursor) :=
  if c.kind = "pair" ∧ keyIs src member c then some (c.child? "value") else none

/-- The values assigned to a property of the name of the definition. -/
def assignedValues (member : String) : List (Option Cursor) :=
  match definition.name with
  | some name =>
    if name = "" then []
    else ((src.memberAssignments name).filter (·.1 == member)).map (·.2)
  | none => []

/-- Every value that is given to a member, in the order in which they count. -/
def memberValues (member : String) : List (Option Cursor) :=
  definition.classMembers.filterMap (staticValue? src member)
    ++ definition.specMembers.filterMap (specValue? src member)
    ++ definition.assignedValues src member

/-- The value of a static member, a key of the specification, or a property assigned to the name of the
definition; of several values the last counts, and names are followed to their values. -/
def member? (member : String) : Option Cursor :=
  (definition.memberValues src member).getLast?.join.map src.resolve

/-- The body that a member of the specification gives a method: `some none` if it gives it none. -/
def methodBody? (member : String) (c : Cursor) : Option (Option Cursor) :=
  if c.isMethod then if src.fieldIs c.node "name" member then some (c.child? "body") else none
  else match c.child? "value" with
    | some value => if keyIs src member c ∧ value.isFunction then some (value.child? "body") else none
    | none => none

/-- The body of a method of the specification. -/
def specMethod? (member : String) : Option Cursor :=
  (definition.specMembers.findSome? (methodBody? src member)).join

/-! ## Parameters -/

/-- The first parameter of a function component. -/
def propsParameter? : Option Cursor :=
  if definition.kind = .byFunction then
    match definition.place.child? "parameters" with
    | some parameters => parameters.parts.head?
    | none => definition.place.child? "parameter"
  else none

end Definition

end ComponentDocs

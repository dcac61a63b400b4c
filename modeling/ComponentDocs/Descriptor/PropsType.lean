import ComponentDocs.Component.Definition
import ComponentDocs.Descriptor.TypeDescriptor
import ComponentDocs.Source.Docblock

/-!
# The type of a component's props

Where a component says the type of its props, and the properties of that type.

* `PropSignature`: a property with its type, whether it has to be given, and its documentation;
* `SourceFile.propSignatures`: the properties of an object type; names of types are followed to their
  declarations and intersections to their parts, up to a fixed depth;
* `Definition.propsType?`: the type node of the props of a component.
-/

namespace ComponentDocs

/-- A property of an object type. -/
structure PropSignature where
  name : String
  type : Option Cursor
  required : Bool
  docblock : Option String

/-- The type inside an annotation, or the type itself. -/
def unwrapAnnotation (c : Cursor) : Option Cursor :=
  if annotationKinds.contains c.kind then c.parts.head? else some c

/-! ## Properties -/

namespace SourceFile

variable (src : SourceFile)

/-- The property of a member of an object type. -/
def propSignature? (member : Cursor) : Option PropSignature :=
  if member.kind = "property_signature" then
    (member.node.child? "name").map fun name =>
      { name := Text.unquote (src.text name), type := member.child? "type",
        required := !member.hasToken "?", docblock := src.docblockBefore member }
  else none

/-- The name of a reference to a type. -/
def referenceName? (c : Cursor) : Option Node :=
  if c.kind = "type_identifier" then some c.node else c.node.child? "name"

/-- The properties of a type, with at most so many steps from names to declarations and from
intersections to parts. -/
def propSignaturesWithin : Nat → Cursor → List PropSignature
  | 0, _ => []
  | depth + 1, c =>
    match unwrapAnnotation c with
    | none => []
    | some type =>
      if type.kind = "type_identifier" ∨ type.kind = "generic_type" then
        match (referenceName? type).bind fun name => src.findType (src.text name) with
        | some declared => propSignaturesWithin depth declared
        | none => []
      else if type.kind = "intersection_type" then type.parts.flatMap (propSignaturesWithin depth)
      else if type.kind = "object_type" ∨ type.kind = "interface_body" then
        type.parts.filterMap src.propSignature?
      else []

/-- How many steps are taken, the type itself included. -/
def typeDepth : Nat := 6

/-- The properties of a type. -/
def propSignatures (c : Cursor) : List PropSignature := src.propSignaturesWithin typeDepth c

end SourceFile

/-! ## Where the type stands -/

/-- The kinds of parameters that carry an annotation. -/
def parameterKinds : List String := ["required_parameter", "optional_parameter"]

namespace Definition

variable (src : SourceFile) (definition : Definition)

/-- The annotation of a field `props` that is not static. -/
def propsField? : Option Cursor :=
  (definition.classMembers.filter fun c =>
    c.isField && !c.hasToken "static" && src.text? c.fieldName? == some "props").findSome? (·.child? "type")

/-- The offset at which the body of the definition starts. -/
def headEnd : Nat := ((definition.place.node.child? "body").map (·.start)).getD definition.place.node.stop

/-- The first argument of the class that the definition extends. -/
def heritageArgument? : Option Cursor :=
  let heritage := definition.place.children.filter fun c =>
    c.kind == "class_heritage" && decide (c.node.start < definition.headEnd)
  ((heritage.flatMap (·.walk)).find? (·.kind == "type_arguments")).bind (·.parts.head?)

/-- The annotation of the first parameter. -/
def parameterType? : Option Cursor :=
  (definition.propsParameter?.filter fun c => parameterKinds.contains c.kind).bind (·.child? "type")

/-- The nearest ancestor that is no call around the definition. -/
def outsideCalls (c : Cursor) : Option Cursor :=
  let calls := ["arguments", "call_expression", "parenthesized_expression"]
  match c.ancestors.dropWhile fun node => calls.contains node.kind with
  | [] => none
  | node :: rest => some ⟨node, rest⟩

/-- The arguments of a generic type. -/
def typeArguments? (type : Cursor) : Option Cursor :=
  (type.child? "type_arguments").or (type.namedChildren.find? (·.kind == "type_arguments"))

/-- The first argument of the type that is written on the variable of the definition. -/
def variableArgument? : Option Cursor := do
  let declarator ← (outsideCalls definition.place).filter (·.kind == "variable_declarator")
  let type ← (← declarator.child? "type") |> unwrapAnnotation
  let arguments ← if type.kind = "generic_type" then typeArguments? type else none
  arguments.parts.head?

/-- The type node of the props of the component. -/
def propsType? : Option Cursor :=
  match definition.kind with
  | .byClass => (definition.propsField? src).or definition.heritageArgument?
  | .byFunction => definition.parameterType?.or definition.variableArgument?
  | .bySpecification => none

end Definition

end ComponentDocs

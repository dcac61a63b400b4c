import ComponentDocs.Source.File

/-!
# Type descriptors

The meaning of a type in Flow or TypeScript, the way documentation presents it.

* `TypeDescriptor`, `TypeDescriptor.record`: the descriptors and their records;
* `TypeDescriptor.orNull`: a descriptor that also admits null; twice is the same as once;
* `SourceFile.describeType`: the descriptor of a type node; annotations and parentheses are looked
  through, nested unions become one, and comments are no parts.
-/

namespace ComponentDocs

/-! ## Descriptors -/

/-- The form of a signature. -/
inductive SignatureForm where
  | function
  | object
deriving DecidableEq, Repr

def SignatureForm.name : SignatureForm → String
  | function => "function"
  | object => "object"

/-- What a type is. -/
inductive TypeDescriptor where
  /-- A type with nothing but a name. -/
  | simple (name : String)
  /-- A literal. -/
  | literal (value : String)
  /-- A type with parts: a union, an array, or a generic type with its arguments. -/
  | compound (name raw : String) (elements : List TypeDescriptor)
  /-- The type of a function or an object. -/
  | signature (form : SignatureForm) (raw : String)
  /-- A type that also admits null. -/
  | nullable (type : TypeDescriptor)
deriving Repr

namespace TypeDescriptor

/-- The descriptor that also admits null. -/
def orNull : TypeDescriptor → TypeDescriptor
  | nullable type => nullable type
  | type => nullable type

mutual

def record : TypeDescriptor → Record
  | simple name => [("name", .str name)]
  | literal value => [("name", .str "literal"), ("value", .str value)]
  | compound name raw elements => [("name", .str name), ("raw", .str raw), ("elements", .arr (records elements))]
  | signature form raw => [("name", .str "signature"), ("type", .str form.name), ("raw", .str raw)]
  | nullable type => Fields.set type.record "nullable" (.bool true)

def records : List TypeDescriptor → List Json
  | [] => []
  | type :: rest => .obj type.record :: records rest

end

/-- The record of a descriptor. -/
def toJson (type : TypeDescriptor) : Json := .obj type.record

/-- The type of everything whose type is not known. -/
def any : TypeDescriptor := simple "any"

end TypeDescriptor

/-! ## Type nodes -/

/-- The kinds of nodes that put a type behind a colon. -/
def annotationKinds : List String := ["type_annotation", "opting_type_annotation", "omitting_type_annotation"]

/-- The kinds of types that are described by their text. -/
def plainTypeKinds : List String :=
  ["predefined_type", "type_identifier", "nested_type_identifier", "identifier", "this_type"]

/-- The parts of a node: the named children that are no comments. -/
def Node.parts (node : Node) : List Node := node.children.filter Node.isPart

/-- The node that names a generic type, and whether the fields of the node tell its name and arguments. -/
def genericName? (children : List Node) : Option Node × Bool :=
  match children.find? (·.field == "name"), children.any (·.field == "type_arguments") with
  | some name, true => (some name, true)
  | _, _ => ((children.filter Node.isPart).head?, false)

/-- The node holds the arguments of a generic type, by its field or by its kind. -/
def holdsArguments (byField : Bool) (node : Node) : Bool :=
  if byField then node.field == "type_arguments" else node.isPart && node.kind == "type_arguments"

namespace SourceFile

variable (src : SourceFile)

/-- The text without question marks at its start. -/
def withoutQuestion (text : String) : String := String.ofList (text.toList.dropWhile (· = '?'))

mutual

/-- The descriptor of a type node; `unwrap` says that an annotation is looked through. -/
def describeNode (unwrap : Bool) : Node → TypeDescriptor
  | .mk kind named missing field start stop children =>
    let text := src.text (.mk kind named missing field start stop children)
    if unwrap && annotationKinds.contains kind then (describeFirst false children).getD .any
    else if plainTypeKinds.contains kind then .simple text
    else if kind = "literal_type" then .literal text
    else if kind = "flow_maybe_type" then
      ((describeFirst true children).getD (.simple (withoutQuestion text))).orNull
    else if kind = "parenthesized_type" then (describeFirst true children).getD (.simple text)
    else if kind = "union_type" then .compound "union" text (describeUnion children)
    else if kind = "array_type" then .compound "Array" text (describeFirst true children).toList
    else if kind = "generic_type" then
      let (name, byField) := genericName? children
      .compound ((src.text? name).getD text) text (describeArguments byField children)
    else if kind = "function_type" then .signature .function text
    else if kind = "object_type" then .signature .object text
    else .simple text

/-- The descriptor of the first part among some nodes. -/
def describeFirst (unwrap : Bool) : List Node → Option TypeDescriptor
  | [] => none
  | node :: rest => if node.isPart then some (describeNode unwrap node) else describeFirst unwrap rest

/-- The descriptors of the parts among some nodes. -/
def describeParts : List Node → List TypeDescriptor
  | [] => []
  | node :: rest => if node.isPart then describeNode true node :: describeParts rest else describeParts rest

/-- The descriptors of the members of a union, those of nested unions in their place. -/
def describeUnion : List Node → List TypeDescriptor
  | [] => []
  | .mk kind named missing field start stop children :: rest =>
    if kind = "union_type" && named then describeUnion children ++ describeUnion rest
    else if (Node.mk kind named missing field start stop children).isPart then
      describeNode true (.mk kind named missing field start stop children) :: describeUnion rest
    else describeUnion rest

/-- The descriptors of the arguments of a generic type. -/
def describeArguments (byField : Bool) : List Node → List TypeDescriptor
  | [] => []
  | .mk kind named missing field start stop children :: rest =>
    if holdsArguments byField (.mk kind named missing field start stop children) then describeParts children
    else describeArguments byField rest

end

/-- The descriptor of a type that may be absent. -/
def describeType (node : Option Node) : TypeDescriptor := (node.map (src.describeNode true)).getD .any

end SourceFile

end ComponentDocs

import ComponentDocs.Component.Recognition
import ComponentDocs.Source.Docblock

/-!
# Prop types

The meaning of an expression that declares the type of a prop, such as `PropTypes.arrayOf(PropTypes.string)`.

* `PropType`, `PropType.toJson`: the types and their records;
* `unwrapRequired`: an expression without `.isRequired`;
* `PropType.describe`: the type that an expression declares. Names are followed to their values, so a
  type may be reached again from itself; such a type has no description.
-/

namespace ComponentDocs

/-! ## Types -/

/-- A member of an enum: its text, and whether it has to be computed. -/
structure EnumMember where
  value : String
  computed : Bool
deriving DecidableEq, Repr

mutual

/-- The type of a prop. -/
inductive PropType where
  /-- A type with nothing but a name. -/
  | simple (name : String)
  /-- One of some values. -/
  | enum (members : List EnumMember)
  /-- One of some types. -/
  | union (members : List PropType)
  /-- A type whose contents are the text of an expression. -/
  | computed (name text : String)
  /-- A collection of elements. -/
  | collection (name : String) (element : PropType)
  /-- An instance of a class. -/
  | instanceOf (text : String)
  /-- An object with some fields. -/
  | shape (name : String) (fields : List ShapeField)
  /-- Anything else, as it is written. -/
  | custom (text : String)

/-- A field of an object type. -/
inductive ShapeField where
  | mk (key : String) (type : PropType) (required : Bool) (description : Option String)

end

namespace ShapeField

def key : ShapeField → String
  | mk key _ _ _ => key

/-- The field in place of an earlier one of the same key, or at the end. -/
def put (field : ShapeField) : List ShapeField → List ShapeField
  | [] => [field]
  | other :: rest => if other.key = field.key then field :: rest else other :: put field rest

/-- The fields with the last of every key at its first place. -/
def dedupe (fields : List ShapeField) : List ShapeField := fields.foldl (fun found field => field.put found) []

end ShapeField

/-! ## Records -/

/-- The record of a member of an enum. -/
def EnumMember.toJson (member : EnumMember) : Json :=
  .obj [("value", .str member.value), ("computed", .bool member.computed)]

mutual

def PropType.record : PropType → Record
  | .simple name => [("name", .str name)]
  | .enum members => [("name", .str "enum"), ("value", .arr (members.map EnumMember.toJson))]
  | .union members => [("name", .str "union"), ("value", .arr (typeRecords members))]
  | .computed name text => [("name", .str name), ("computed", .bool true), ("value", .str text)]
  | .collection name element => [("name", .str name), ("value", .obj element.record)]
  | .instanceOf text => [("name", .str "instanceOf"), ("value", .str text)]
  | .shape name fields => [("name", .str name), ("value", .obj (fieldRecords fields))]
  | .custom text => [("name", .str "custom"), ("raw", .str text)]

def typeRecords : List PropType → List Json
  | [] => []
  | type :: rest => .obj type.record :: typeRecords rest

/-- The key and the record of a field. -/
def ShapeField.entry : ShapeField → String × Json
  | .mk key type required description =>
    let documented : Record := match description with
      | some text => if text = "" then [] else [("description", .str text)]
      | none => []
    (key, .obj (type.record ++ ("required", .bool required) :: documented))

/-- The keys and records of some fields. -/
def fieldRecords : List ShapeField → List (String × Json)
  | [] => []
  | field :: rest => field.entry :: fieldRecords rest

end

/-- The record of a type. -/
def PropType.toJson (type : PropType) : Json := .obj type.record

/-! ## Expressions -/

/-- The kinds of expressions whose value is not written in the source. -/
def computedKinds : List String := ["identifier", "member_expression", "call_expression"]

/-- The value of an expression is not written in the source. -/
def isComputed (c : Cursor) : Bool := computedKinds.contains c.kind

def literalKinds : List String :=
  ["string", "number", "true", "false", "null", "undefined", "template_string", "regex"]

/-- The types that have nothing but a name. -/
def simpleTypes : List String :=
  ["array", "bool", "func", "number", "object", "string", "symbol", "any", "element", "elementType", "node"]

/-- The types that are called with an argument. -/
def calledTypes : List String :=
  ["oneOf", "oneOfType", "arrayOf", "objectOf", "instanceOf", "shape", "exact"]

/-- The name of a type: a plain name, or a property of an object whose text ends in `PropTypes`. -/
def typeName? (src : SourceFile) (node : Node) : Option String :=
  if node.kind = "identifier" then some (src.text node)
  else if node.kind = "member_expression" then
    match node.child? "object", node.child? "property" with
    | some object, some property =>
      if "PropTypes".toList.isSuffixOf (src.text object).toList then some (src.text property) else none
    | _, _ => none
  else none

/-- An expression without one `.isRequired`, and whether there was one. -/
def unwrapRequired (src : SourceFile) (c : Cursor) : Cursor × Bool :=
  if c.kind = "member_expression" ∧ src.fieldIs c.node "property" "isRequired" then
    ((c.child? "object").getD c, true)
  else (c, false)

/-- The member of an enum that an element of a list writes. -/
def enumMember (src : SourceFile) (c : Cursor) : EnumMember :=
  { value := src.text c.node, computed := !literalKinds.contains c.kind }

/-- The key of a keyed value without its quotes. -/
def pairKey (src : SourceFile) (pair : Cursor) : String :=
  Text.unquote ((src.text? (pair.node.child? "key")).getD "")

/-- The type that a call of `name` declares, with its argument; `element` describes inner types. -/
def describeCall (src : SourceFile) (element : Cursor → Except Fault PropType) (name : String)
    (argument : Cursor) : Except Fault PropType :=
  if name = "oneOf" then
    .ok (if argument.kind = "array" then .enum (argument.parts.map (enumMember src))
      else .computed "enum" (src.text argument.node))
  else if name = "oneOfType" then
    if argument.kind = "array" then return .union (← argument.parts.mapM element)
    else .ok (.computed "union" (src.text argument.node))
  else if name = "arrayOf" ∨ name = "objectOf" then return .collection name (← element argument)
  else if name = "instanceOf" then .ok (.instanceOf (src.text argument.node))
  else if argument.kind = "object" then do
    let pairs := argument.namedChildren.filter (·.kind == "pair")
    let fields ← pairs.mapM fun pair => do
      let (value, required) := unwrapRequired src ((pair.child? "value").getD pair)
      pure (ShapeField.mk (pairKey src pair) (← element value) required (src.docblockBefore pair))
    pure (.shape name (ShapeField.dedupe fields))
  else .ok (.computed name (src.text argument.node))

/-- The called type and the argument of a call. -/
def typeCall? (src : SourceFile) (c : Cursor) : Option (String × Cursor) :=
  if c.kind = "call_expression" then do
    let name ← (c.node.child? "function").bind (typeName? src)
    let argument ← firstArgument? c
    if calledTypes.contains name then pure (name, src.resolve argument) else none
  else none

/-- The type that an expression declares, if it is described within some depth of inner types. -/
def PropType.describeWithin (src : SourceFile) : Nat → Cursor → Except Fault PropType
  | 0, _ => .error .circularPropType
  | depth + 1, c =>
    let inner := (unwrapRequired src c).1
    match (typeName? src inner.node).filter simpleTypes.contains with
    | some name => .ok (.simple name)
    | none =>
      match typeCall? src inner with
      | some (name, argument) => describeCall src (describeWithin src depth) name argument
      | none => .ok (.custom (src.text inner.node))

/-- The type that an expression declares. A depth of inner types beyond the number of nodes means that
some node was reached again. -/
def PropType.describe (src : SourceFile) (c : Cursor) : Except Fault PropType :=
  PropType.describeWithin src (src.root.size + 1) c

end ComponentDocs

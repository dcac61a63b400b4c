import ComponentDocs.Digest.Identifier
import ComponentDocs.Graph.Schema

/-!
# Emission

The nodes and edges for the components of a file. Every component and every prop has a node, and every
distinct description text of the file has one, which all that use the text share.

* `EmittedNode`: the three types of nodes, `EmittedNode.record`: their records;
* `Emission`: the nodes and edges so far, with the descriptions so far;
* `emit`: the schema of a file.
-/

namespace ComponentDocs

/-! ## Nodes -/

/-- A node that is emitted for a file. -/
inductive EmittedNode where
  /-- A component with the identifiers of its props and its description. -/
  | component (id parent digest : String) (payload : Record) (props : List String) (description : Option String)
  /-- A prop with the identifier of its description. -/
  | prop (id parent digest : String) (payload : Record) (description : Option String)
  /-- A description text. -/
  | description (id parent digest text : String)
deriving Repr

namespace EmittedNode

/-- The identifier of the node. -/
def id : EmittedNode → String
  | component id _ _ _ _ _ => id
  | prop id _ _ _ _ => id
  | description id _ _ _ => id

/-- The identifier of the node that the node belongs to. -/
def parent : EmittedNode → String
  | component _ parent _ _ _ _ => parent
  | prop _ parent _ _ _ => parent
  | description _ parent _ _ => parent

/-- The name of the type of the node. -/
def type : EmittedNode → String
  | component .. => "ComponentMetadata"
  | prop .. => "ComponentProp"
  | description .. => "ComponentDescription"

/-- The identifiers of the nodes below the node. -/
def children : EmittedNode → List String
  | component _ _ _ _ props text => props ++ text.toList
  | prop _ _ _ _ text => text.toList
  | description .. => []

/-- The description that the node uses. -/
def described : EmittedNode → Option String
  | component _ _ _ _ _ text => text
  | prop _ _ _ _ text => text
  | description .. => none

/-- Identifiers as a list. -/
def idList (ids : List String) : Json := .arr (ids.map .str)

/-- The fields that every node has. -/
def common (id parent : String) (extra : Record) (children : List String) (internal : Record) : Record :=
  [("id", .str id), ("parent", .str parent)] ++ extra ++
    [("children", idList children), ("internal", .obj internal)]

def link (description : Option String) : Record :=
  match description with
  | some id => [("description___NODE", .str id)]
  | none => []

/-- The record of the node: what it stands for, overwritten with its own fields. -/
def record (node : EmittedNode) : Record :=
  match node with
  | component id parent digest payload props text =>
    Fields.merge payload (common id parent [] node.children
        [("type", .str node.type), ("content_digest", .str digest)]
      ++ [("props___NODE", idList props)] ++ link text)
  | prop id parent digest payload text =>
    Fields.merge payload (common id parent [("parentType", Record.get payload "type")] node.children
        [("type", .str node.type), ("content_digest", .str digest)]
      ++ link text)
  | description id parent digest text =>
    [("id", .str id), ("parent", .str parent), ("children", .arr []), ("text", .str text),
      ("internal", .obj [("type", .str node.type), ("media_type", .str "text/markdown"),
        ("content", .str text), ("content_digest", .str digest)])]

def toSchemaNode (node : EmittedNode) : SchemaNode := ⟨node.id, node.record⟩

end EmittedNode

/-! ## Seeds -/

def componentSeed (file : String) (index : Nat) (component : Record) : String :=
  file ++ "--" ++ toString index ++ "--" ++ (Record.get component "displayName").display ++ "--ComponentMetadata"

def propSeed (component : String) (name : Json) : String := component ++ "--ComponentProp-" ++ name.display

def descriptionSeed (file digest : String) : String := file ++ "--ComponentDescription--" ++ digest

/-! ## Emitting -/

/-- What was emitted so far: nodes and edges, and the identifiers of the description texts. -/
structure Emission where
  nodes : List EmittedNode
  edges : List Edge
  texts : Fields String

namespace Emission

/-- Nothing was emitted. -/
def start : Emission := ⟨[], [], []⟩

/-- The emission with the nodes and edges of a later one, which knows all texts. -/
def append (a b : Emission) : Emission := ⟨a.nodes ++ b.nodes, a.edges ++ b.edges, b.texts⟩

end Emission

section

variable (createId : String → String) (file : String)

/-- Emits the description of an entity: the node of its text if the text is new, and the edge to it. The
identifier of the description is there unless the text is empty. -/
def emitDescription (entity : String) (text : Option String) (texts : Fields String) :
    Option String × Emission :=
  match text with
  | none => (none, ⟨[], [], texts⟩)
  | some text =>
    match Fields.get? texts text with
    | some id => (some id, ⟨[], [⟨entity, id, "has_description"⟩], texts⟩)
    | none =>
      let digest := contentDigest (.str text)
      let id := createId (descriptionSeed file digest)
      (some id, ⟨[.description id entity digest text], [⟨entity, id, "has_description"⟩],
        texts ++ [(text, id)]⟩)

/-- Emits a prop of the component with an identifier and a seed. -/
def emitProp (component seed : String) (prop : Record) (texts : Fields String) :
    Except Fault (String × Emission) := do
  let name ← Record.require prop "name"
  let id := createId (propSeed seed name)
  let (description, emitted) := emitDescription createId file id (Record.text? prop "description") texts
  let node := EmittedNode.prop id component (contentDigest (.obj prop)) prop description
  pure (id, ⟨node :: emitted.nodes, ⟨component, id, "has_prop"⟩ :: emitted.edges, emitted.texts⟩)

def emitProps (component seed : String) (texts : Fields String) : List Record → Except Fault (List String × Emission)
  | [] => .ok ([], ⟨[], [], texts⟩)
  | prop :: rest => do
    let (id, first) ← emitProp createId file component seed prop texts
    let (ids, others) ← emitProps component seed first.texts rest
    pure (id :: ids, first.append others)

def emitComponent (index : Nat) (component : Record) (texts : Fields String) : Except Fault Emission := do
  let seed := componentSeed file index component
  let id := createId seed
  let (props, below) ← emitProps createId file id seed texts ((Record.list component "props").map Json.fields)
  let (description, emitted) :=
    emitDescription createId file id (Record.text? component "description") below.texts
  let node := EmittedNode.component id file (contentDigest (.obj component)) (Fields.erase component "props")
    props description
  let whole := below.append emitted
  pure ⟨node :: whole.nodes, ⟨file, id, "has_component"⟩ :: whole.edges, whole.texts⟩

def emitComponents (index : Nat) (texts : Fields String) : List Record → Except Fault Emission
  | [] => .ok ⟨[], [], texts⟩
  | component :: rest => do
    let first ← emitComponent createId file index component texts
    let others ← emitComponents (index + 1) first.texts rest
    pure (first.append others)

end

def Emission.schema (emission : Emission) : Schema :=
  ⟨emission.nodes.map EmittedNode.toSchemaNode, emission.edges⟩

/-- The schema of the components of a file. -/
def emit (createId : String → String) (file : Record) (components : List Record) : Except Fault Schema := do
  let id ← Record.requireText file "id"
  return (← emitComponents createId id 0 [] components).schema

end ComponentDocs

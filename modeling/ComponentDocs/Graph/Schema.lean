import ComponentDocs.Fault
import ComponentDocs.Graph.Basic

/-!
# Schemas

The nodes and edges that one file brings into a graph.

* `Schema`, `SchemaNode`, `Graph.addSchema`;
* `Schema.ofRecord`: the schema of a record, up to the first entry that lacks something;
* `Graph.removeFileNodes`, `Graph.replaceFileNodes`: what a file brought before, taken out and replaced;
* `Graph.nodesOfType`: the nodes of an internal type.
-/

namespace ComponentDocs

/-- A node with all fields of its record. -/
structure SchemaNode where
  id : String
  fields : Record
deriving Repr

/-- What a file brings into a graph. -/
structure Schema where
  nodes : List SchemaNode
  edges : List Edge
deriving Repr

namespace Schema

/-- A schema without nodes. -/
def empty : Schema := ⟨[], []⟩

/-! ## Records -/

/-- The results for the items before the first that fails, and how it fails. -/
def readWhile {α β : Type} (f : α → Except Fault β) : List α → List β × Option Fault
  | [] => ([], none)
  | item :: rest =>
    match f item with
    | .error fault => ([], some fault)
    | .ok result =>
      let (results, fault) := readWhile f rest
      (result :: results, fault)

def readNode (record : Json) : Except Fault SchemaNode :=
  (Record.requireText record.fields "id").map fun id => ⟨id, record.fields⟩

def readEdge (record : Json) : Except Fault Edge := do
  pure { source := ← Record.requireText record.fields "from", target := ← Record.requireText record.fields "to",
         relation := (Record.text? record.fields "relation").getD "" }

/-- The nodes and edges of a record up to the first that lacks something, and what is lacking. -/
def ofRecord (record : Record) : Schema × Option Fault :=
  match Record.require record "nodes" with
  | .error fault => (empty, some fault)
  | .ok nodes =>
    match readWhile readNode nodes.items with
    | (nodes, some fault) => (⟨nodes, []⟩, some fault)
    | (nodes, none) =>
      match Record.require record "edges" with
      | .error fault => (⟨nodes, []⟩, some fault)
      | .ok edges =>
        let (edges, fault) := readWhile readEdge edges.items
        (⟨nodes, edges⟩, fault)

def edgeRecord (edge : Edge) : Json :=
  .obj [("from", .str edge.source), ("to", .str edge.target), ("relation", .str edge.relation)]

end Schema

namespace Graph

/-! ## Adding -/

def addSchema (g : Graph) (schema : Schema) : Graph :=
  schema.edges.foldl putEdge
    (schema.nodes.foldl (fun g node => g.putNode node.id (attributes node.fields)) g)

/-! ## Files -/

/-- The graph without what can be reached from a file, and how many nodes that were. -/
def removeFileNodes (g : Graph) (file : String) : Graph × Nat :=
  if g.hasNode file then
    let stale := g.descendants file
    (g.remove stale, stale.length)
  else (g, 0)

/-- The fields of a file that its node keeps. -/
def fileKeys : List String := ["absolute_path", "relative_path", "extension", "media_type"]

/-- The attributes of the node of a file: the kept fields that are not null, and its kind. -/
def fileAttributes (file : Record) : Record :=
  fileKeys.filterMap (fun key =>
    match Record.get file key with
    | .null => none
    | value => some (key, value)) ++ [("kind", .str "File")]

/-- The graph in which a file brings nothing. -/
def resetFile (g : Graph) (id : String) (file : Record) : Graph :=
  (g.removeFileNodes id).1.putNode id (fileAttributes file)

/-- The graph in which a file brings a schema instead of what it brought before. -/
def replaceFileNodes (g : Graph) (id : String) (file : Record) (schema : Schema) : Graph :=
  (g.resetFile id file).addSchema schema

/-! ## Types -/

/-- The node has an internal type; its attribute `internal` is the JSON text of a record. -/
def hasType (type : Json) (attrs : Record) : Except Fault Bool :=
  match Record.text? attrs "internal" with
  | none => .ok false
  | some text => do
    let internal ← (Json.read text).mapError Fault.badJson
    pure (Record.get internal.fields "type" == type)

/-- The nodes of an internal type in order. -/
def nodesOfType (g : Graph) (type : Json) : Except Fault (List (String × Record)) :=
  g.nodes.filterM fun node => hasType type node.2

end Graph

end ComponentDocs

import ComponentDocs.Json.Printer

/-!
# Graphs

Directed graphs of nodes with attributes, in the order in which the nodes came, and edges with one
relation each.

* `Graph`, `Graph.putNode`, `Graph.putEdge`: adding what may be there already;
* `Graph.descendants`: what can be reached from a node, the node itself left out;
* `Graph.remove`: a graph without some nodes and without their edges;
* `attributes`: the attributes of a record, with everything but scalars as JSON text.
-/

namespace ComponentDocs

/-- An edge and its relation. -/
structure Edge where
  source : String
  target : String
  relation : String
deriving DecidableEq, Repr

/-- A directed graph. -/
structure Graph where
  nodes : Fields Record
  edges : List Edge
deriving Repr

namespace Graph

/-- The graph without nodes. -/
def empty : Graph := ⟨[], []⟩

/-- The node is there. -/
def hasNode (g : Graph) (id : String) : Bool := Fields.has g.nodes id

/-! ## Adding -/

/-- The graph with a node; attributes of a node that is there are overwritten one by one. -/
def putNode (g : Graph) (id : String) (attrs : Record) : Graph :=
  { g with nodes := Fields.modify g.nodes id [] fun old => Fields.merge old attrs }

/-- The edges with an edge, in place of one between the same nodes or at the end. -/
def putAmong (edge : Edge) : List Edge → List Edge
  | [] => [edge]
  | other :: rest =>
    if other.source = edge.source ∧ other.target = edge.target then edge :: rest
    else other :: putAmong edge rest

/-- The graph with an edge and, where they are missing, its ends. -/
def putEdge (g : Graph) (edge : Edge) : Graph :=
  let ended := (g.putNode edge.source []).putNode edge.target []
  { ended with edges := putAmong edge ended.edges }

/-! ## Reaching -/

/-- The targets of the edges that leave some nodes and lead elsewhere, each once. -/
def successors (g : Graph) (ids : List String) : List String :=
  (((g.edges.filter fun e => ids.contains e.source).map (·.target)).filter (!ids.contains ·)).eraseDups

/-- The nodes that can be reached from some nodes in at most so many rounds. -/
def spread (g : Graph) : Nat → List String → List String
  | 0, ids => ids
  | rounds + 1, ids =>
    match g.successors ids with
    | [] => ids
    | found => spread g rounds (ids ++ found)

/-- What can be reached from a node, the node itself left out. Every round finds a node, so as many
rounds as there are nodes find all. -/
def descendants (g : Graph) (id : String) : List String := (g.spread g.nodes.length [id]).filter (· ≠ id)

/-! ## Removing -/

/-- The graph without some nodes and without the edges at them. -/
def remove (g : Graph) (ids : List String) : Graph :=
  { nodes := g.nodes.filter fun node => !ids.contains node.1,
    edges := g.edges.filter fun e => !ids.contains e.source && !ids.contains e.target }

/-! ## Listing -/

/-- The nodes by their identifiers. -/
def sortedNodes (g : Graph) : Fields Record := g.nodes.mergeSort fun a b => decide (a.1 ≤ b.1)

/-- The order of edges by their ends. -/
def edgeBefore (a b : Edge) : Bool :=
  if a.source = b.source then decide (a.target ≤ b.target) else decide (a.source ≤ b.source)

/-- The edges by their ends. -/
def sortedEdges (g : Graph) : List Edge := g.edges.mergeSort edgeBefore

/-- The graph as a record of sorted nodes and edges. -/
def toJson (g : Graph) : Json :=
  .obj [("nodes", .arr (g.sortedNodes.map fun node => .arr [.str node.1, .obj node.2])),
    ("edges", .arr (g.sortedEdges.map fun e => .arr [.str e.source, .str e.target, .str e.relation]))]

end Graph

/-! ## Attributes -/

/-- The attribute that a value becomes: null is empty, scalars stay, and the rest is JSON text. -/
def attributeValue : Json → Json
  | .null => .str ""
  | .arr items => .str (Json.arr items).compactText
  | .obj fields => .str (Json.obj fields).compactText
  | scalar => scalar

/-- The attributes of a record; its identifier is none of them. -/
def attributes (record : Record) : Record :=
  (Fields.erase record "id").map fun field => (field.1, attributeValue field.2)

end ComponentDocs

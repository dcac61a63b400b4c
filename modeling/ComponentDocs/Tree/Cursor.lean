import ComponentDocs.Tree.Node

/-!
# Cursors

A place in a syntax tree: a node with the nodes around it.

* `Cursor`, `Cursor.parent?`, `Cursor.children`, `Cursor.child?`;
* `Cursor.walk`: the places of a tree, each before the places below it, in source order;
* `Cursor.unwrapParens`: the place inside parentheses;
* `Cursor.leftmostObject`: the head of a chain of member accesses.
-/

namespace ComponentDocs

/-- A node and its ancestors, nearest first. -/
structure Cursor where
  node : Node
  ancestors : List Node
deriving Repr, Inhabited

namespace Cursor

/-- The top of a tree. -/
def root (node : Node) : Cursor := ⟨node, []⟩

/-- What the node is. -/
def kind (c : Cursor) : String := c.node.kind

/-- The place of the parent. -/
def parent? (c : Cursor) : Option Cursor :=
  match c.ancestors with
  | [] => none
  | node :: rest => some ⟨node, rest⟩

/-- The place of a child. -/
def enter (c : Cursor) (child : Node) : Cursor := ⟨child, c.node :: c.ancestors⟩

/-- The places of all children. -/
def children (c : Cursor) : List Cursor := c.node.children.map c.enter

/-- The places of the children that are no keywords and no signs. -/
def namedChildren (c : Cursor) : List Cursor := c.node.namedChildren.map c.enter

/-- The places of the named children that are no comments. -/
def parts (c : Cursor) : List Cursor := (c.node.children.filter Node.isPart).map c.enter

/-- The place of the first child that fills a field. -/
def child? (c : Cursor) (field : String) : Option Cursor := (c.node.child? field).map c.enter

/-- A child is a keyword or sign of some kind. -/
def hasToken (c : Cursor) (kind : String) : Bool := c.node.children.any (·.kind == kind)

/-! ## Traversal -/

mutual

/-- The places of the tree below some ancestors. -/
def walkFrom (ancestors : List Node) : Node → List Cursor
  | .mk kind named missing field start stop children =>
    let node := Node.mk kind named missing field start stop children
    ⟨node, ancestors⟩ :: walkAll (node :: ancestors) children

/-- The places of several trees below some ancestors. -/
def walkAll (ancestors : List Node) : List Node → List Cursor
  | [] => []
  | node :: rest => walkFrom ancestors node ++ walkAll ancestors rest

end

/-- The places of a tree, each before the places below it, in source order. -/
def walk (c : Cursor) : List Cursor := walkFrom c.ancestors c.node

/-! ## Parentheses -/

mutual

/-- The place inside any parentheses around an expression. -/
def unwrapParensFrom (ancestors : List Node) : Node → Cursor
  | .mk kind named missing field start stop children =>
    let node := Node.mk kind named missing field start stop children
    if kind = "parenthesized_expression" then unwrapFirst node ancestors children else ⟨node, ancestors⟩

/-- The place inside the first named node, or the place around if there is none. -/
def unwrapFirst (outer : Node) (ancestors : List Node) : List Node → Cursor
  | [] => ⟨outer, ancestors⟩
  | node :: rest =>
    if node.named then unwrapParensFrom (outer :: ancestors) node else unwrapFirst outer ancestors rest

end

/-- The place inside any parentheses around an expression. -/
def unwrapParens (c : Cursor) : Cursor := unwrapParensFrom c.ancestors c.node

end Cursor

/-! ## Member accesses -/

namespace Node

mutual

/-- The leftmost object of a chain of member accesses. -/
def leftmostObject : Node → Option Node
  | mk kind named missing field start stop children =>
    if kind = "member_expression" then leftmostObjectIn children
    else some (mk kind named missing field start stop children)

/-- The leftmost object of the first child that is an object. -/
def leftmostObjectIn : List Node → Option Node
  | [] => none
  | node :: rest => if node.field = "object" then leftmostObject node else leftmostObjectIn rest

end

end Node

end ComponentDocs

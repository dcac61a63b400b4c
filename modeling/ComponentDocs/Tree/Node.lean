import ComponentDocs.Json.Basic

/-!
# Syntax trees

The tree that a parser made of a source. A node has a kind, the bytes it covers, the field it fills in
its parent, and all its children in source order; keywords and brackets are nodes without a name.

* `Node`, `Node.size`: the number of nodes of a tree;
* `Node.isError`: the parser could not read the text of a node, or missed it;
* `Node.ofJson?`: a tree from nested lists.
-/

namespace ComponentDocs

/-- A node of a syntax tree. -/
inductive Node where
  | mk (kind : String) (named missing : Bool) (field : String) (start stop : Nat) (children : List Node)
deriving Repr, Inhabited

namespace Node

/-- What the node is. -/
def kind : Node → String
  | mk kind _ _ _ _ _ _ => kind

/-- The node is no keyword and no sign. -/
def named : Node → Bool
  | mk _ named _ _ _ _ _ => named

/-- The parser put the node in where the text misses it. -/
def missing : Node → Bool
  | mk _ _ missing _ _ _ _ => missing

/-- The field of its parent that the node fills, empty for none. -/
def field : Node → String
  | mk _ _ _ field _ _ _ => field

/-- The offset of its first byte. -/
def start : Node → Nat
  | mk _ _ _ _ start _ _ => start

/-- The offset after its last byte. -/
def stop : Node → Nat
  | mk _ _ _ _ _ stop _ => stop

def children : Node → List Node
  | mk _ _ _ _ _ _ children => children

/-- The children that are no keywords and no signs. -/
def namedChildren (node : Node) : List Node := node.children.filter (·.named)

/-- The first child that fills a field. -/
def child? (node : Node) (field : String) : Option Node := node.children.find? (·.field == field)

/-- Both nodes have the same bytes and the same kind. -/
def same (a b : Node) : Bool := a.start == b.start && a.stop == b.stop && a.kind == b.kind

/-- The parser could not read the text of the node, or missed it. -/
def isError (node : Node) : Bool := node.kind == "ERROR" || node.missing

def isComment (node : Node) : Bool := node.kind == "comment"

/-- A named node that is no comment. -/
def isPart (node : Node) : Bool := node.named && !node.isComment

/-! ## Size -/

mutual

/-- The number of nodes of a tree. -/
def size : Node → Nat
  | mk _ _ _ _ _ _ children => sizeAll children + 1

/-- The number of nodes of some trees. -/
def sizeAll : List Node → Nat
  | [] => 0
  | node :: rest => size node + sizeAll rest

end

/-- The tree of an empty source. -/
def empty : Node := mk "program" true false "" 0 0 []

/-! ## Nested lists -/

/-- The node with the given parts; the flags hold one for a named and two for a missing node. -/
def ofParts (kind : String) (flags : Int) (field : String) (start stop : Int) (children : List Node) : Node :=
  mk kind (flags % 2 == 1) (flags / 2 % 2 == 1) field start.toNat stop.toNat children

mutual

/-- The tree that a list of kind, flags, field, start, end and children writes. -/
def ofJson? : Json → Option Node
  | .arr (.str kind :: .int flags :: .str field :: .int start :: .int stop :: children) => do
    pure (ofParts kind flags field start stop (← ofJsonAll? children))
  | _ => none

/-- The trees that lists write. -/
def ofJsonAll? : List Json → Option (List Node)
  | [] => some []
  | item :: rest => do pure ((← ofJson? item) :: (← ofJsonAll? rest))

end

end Node

end ComponentDocs

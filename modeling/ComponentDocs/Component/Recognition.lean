import ComponentDocs.Component.Definition

/-!
# Recognising components

Which nodes define a component by their shape, and at which positions a definition counts as bound at
the top level of its module.

* `isComponentClass`: the class extends a component class or has a `render` method;
* `specOfCall?`: the specification object of a call that creates a class;
* `returnsMarkup`: the function returns markup or a created element;
* `anchor?`: the way from a definition to the top level, with the name it is bound to on the way.
-/

namespace ComponentDocs

open Text

/-! ## Classes -/

/-- The text goes on with `word`: the text after it. -/
def afterWord? (word : String) (cs : List Char) : Option (List Char) :=
  if word.toList.isPrefixOf cs then some (cs.drop word.toList.length) else none

/-- The text starts with the last name of a component class. -/
def startsWithComponent (cs : List Char) : Bool :=
  match afterWord? "Component" cs with
  | some rest => !(rest.head?.any isWord)
  | none => false

/-- The text starts with the name of a component class, pure or not. -/
def startsWithPureComponent (cs : List Char) : Bool :=
  startsWithComponent cs || ((afterWord? "Pure" cs).any startsWithComponent)

/-- The text starts with the name of a component class, with or without its module. -/
def startsWithBase (cs : List Char) : Bool :=
  startsWithPureComponent cs || ((afterWord? "React." cs).any startsWithPureComponent)

/-- The text starts with a clause that extends a component class. -/
def startsWithExtends (cs : List Char) : Bool :=
  match afterWord? "extends" cs with
  | some rest => rest.head?.any isBlank && startsWithBase (trimStart rest)
  | none => false

/-- Such a clause starts a word somewhere in the text; `inWord` says that a word character comes before
the text. -/
def extendsComponent (inWord : Bool) : List Char → Bool
  | [] => false
  | c :: rest => (!inWord && startsWithExtends (c :: rest)) || extendsComponent (isWord c) rest

/-- The class extends a component class or has a `render` method. -/
def isComponentClass (src : SourceFile) (node : Node) : Bool :=
  match node.child? "body" with
  | none => false
  | some body =>
    extendsComponent false (src.characters node.start body.start)
      || body.namedChildren.any fun m => m.kind == "method_definition" && src.fieldIs m "name" "render"

/-! ## Created classes -/

/-- The callees that create a class from a specification. -/
def createClassCallees : List String := ["React.createClass", "createReactClass", "createClass"]

/-- The callee of a call has one of some texts. -/
def calleeIn (src : SourceFile) (callees : List String) (call : Node) : Bool :=
  (src.text? (call.child? "function")).any callees.contains

def firstArgument? (call : Cursor) : Option Cursor := (call.child? "arguments").bind (·.parts.head?)

/-- The specification object of a call that creates a class. -/
def specOfCall? (src : SourceFile) (call : Cursor) : Option Cursor :=
  if call.kind = "call_expression" ∧ calleeIn src createClassCallees call.node then
    (firstArgument? call).filter (·.kind == "object")
  else none

/-! ## Functions -/

/-- The kinds of markup nodes. -/
def markupKinds : List String := ["jsx_element", "jsx_self_closing_element", "jsx_fragment"]

/-- The callees that create an element. -/
def createElementCallees : List String := ["React.createElement", "createElement"]

/-- The node is markup or creates an element. -/
def isMarkup (src : SourceFile) (node : Node) : Bool :=
  markupKinds.contains node.kind
    || (node.kind == "call_expression" && calleeIn src createElementCallees node)

/-- The tree holds markup. -/
def containsMarkup (src : SourceFile) (c : Cursor) : Bool := c.walk.any fun place => isMarkup src place.node

mutual

/-- The return statements of a tree that are in no nested function or class. -/
def returnsFrom (ancestors : List Node) : Node → List Cursor
  | .mk kind named missing field start stop children =>
    let node := Node.mk kind named missing field start stop children
    if kind = "return_statement" then [⟨node, ancestors⟩] else returnsAmong (node :: ancestors) children

/-- The return statements of several trees that are in no nested function or class. -/
def returnsAmong (ancestors : List Node) : List Node → List Cursor
  | [] => []
  | node :: rest =>
    if functionKinds.contains node.kind || classKinds.contains node.kind then returnsAmong ancestors rest
    else returnsFrom ancestors node ++ returnsAmong ancestors rest

end

/-- The return statements of a body. -/
def returnsOf (body : Cursor) : List Cursor := returnsFrom body.ancestors body.node

/-- The function returns markup. -/
def returnsMarkup (src : SourceFile) (function : Cursor) : Bool :=
  match function.child? "body" with
  | none => false
  | some body =>
    if body.kind = "statement_block" then
      (returnsOf body).any fun statement => statement.namedChildren.any (containsMarkup src)
    else containsMarkup src body

/-! ## Positions -/

/-- The callees that keep the function they are given a component. -/
def wrapperCallees : List String := ["React.forwardRef", "forwardRef", "React.memo", "memo"]

/-- The kinds of nodes between a definition and the top level that change nothing. -/
def passingKinds : List String :=
  ["call_expression", "parenthesized_expression", "lexical_declaration", "variable_declaration",
   "expression_statement"]

/-- How a definition is reached from the top level: the name it is bound to first, and whether an export
is on the way. -/
structure Anchor where
  name : Option String
  exported : Bool
deriving DecidableEq, Repr

def fillsField (parent : Node) (field : String) (node : Node) : Bool := (parent.child? field).any (·.same node)

/-- The way up from a node through the rest of its ancestors. -/
def anchorFrom (src : SourceFile) (node : Node) (found : Anchor) : List Node → Option Anchor
  | [] => none
  | parent :: rest =>
    if parent.kind = "program" then some found
    else if parent.kind = "export_statement" then anchorFrom src parent { found with exported := true } rest
    else if parent.kind = "variable_declarator" then
      if fillsField parent "value" node then
        anchorFrom src parent { found with name := found.name.or (src.text? (parent.child? "name")) } rest
      else none
    else if parent.kind = "assignment_expression" then
      if fillsField parent "right" node then
        anchorFrom src parent { found with name := found.name.or (src.text? (parent.child? "left")) } rest
      else none
    else if parent.kind = "arguments" then
      if rest.head?.any (calleeIn src wrapperCallees) then anchorFrom src parent found rest else none
    else if passingKinds.contains parent.kind then anchorFrom src parent found rest
    else none

/-- How a definition is reached from the top level, if it is bound there. -/
def anchor? (src : SourceFile) (c : Cursor) : Option Anchor := anchorFrom src c.node ⟨none, false⟩ c.ancestors

end ComponentDocs

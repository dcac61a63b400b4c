import ComponentDocs.Source.Comment
import ComponentDocs.Source.File

/-!
# Docblocks

Which documentation comment belongs to a node: the nearest one before it, with no other named node in
between. A definition may also take the comment of the statement that wraps it.

* `SourceFile.docblockBefore`, `SourceFile.docblockFor`.
-/

namespace ComponentDocs

namespace SourceFile

variable (src : SourceFile)

/-- The text of the nearest documentation comment among the siblings before a node, nearest first. -/
def docAmong : List Node → Option String
  | [] => none
  | sibling :: rest =>
    if sibling.isComment then
      if isDocComment (src.text sibling).toList then some (docString (src.text sibling)) else docAmong rest
    else if sibling.named then none
    else docAmong rest

/-- The siblings before a node, nearest first. -/
def siblingsBefore (node : Node) (siblings : List Node) : List Node :=
  if siblings.any (·.same node) then (siblings.takeWhile (!·.same node)).reverse else []

/-- The documentation of a node among the children of its parent. -/
def docBetween (node : Node) (parent : Option Node) : Option String :=
  parent.bind fun parent => src.docAmong (siblingsBefore node parent.children)

/-- The documentation directly before a node. -/
def docblockBefore (c : Cursor) : Option String := src.docBetween c.node c.ancestors.head?

/-- The kinds of nodes between a definition and the statement that documents it. -/
def wrapperKinds : List String :=
  ["variable_declarator", "lexical_declaration", "variable_declaration", "export_statement",
   "assignment_expression", "expression_statement", "parenthesized_expression", "arguments",
   "call_expression"]

/-- The documentation of a node or of the nodes that wrap it. -/
def docblockUpwards (node : Node) : List Node → Option String
  | [] => none
  | parent :: rest =>
    (src.docBetween node (some parent)).or
      (if wrapperKinds.contains parent.kind then docblockUpwards parent rest else none)

/-- The documentation of a definition. -/
def docblockFor (c : Cursor) : Option String := src.docblockUpwards c.node c.ancestors

end SourceFile

end ComponentDocs

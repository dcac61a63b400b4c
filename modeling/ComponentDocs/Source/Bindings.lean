import ComponentDocs.Source.File
import ComponentDocs.Text.Quoted

/-!
# Bindings

What names stand for at the top level of a source: variables, types, imports, exports, and properties
that are assigned to a name.

* `SourceFile.findVariable`: the value of a variable, `SourceFile.resolve`: the value behind a name;
* `SourceFile.findType`: the object type behind a type name;
* `SourceFile.memberAssignments`: the properties assigned to a name;
* `SourceFile.imports`, `SourceFile.exportedNames`.
-/

namespace ComponentDocs

namespace SourceFile

variable (src : SourceFile)

/-! ## Statements -/

/-- The declaration that an export exports, or the statement itself. -/
def exportedDeclaration (statement : Cursor) : Cursor :=
  if statement.kind = "export_statement" then (statement.child? "declaration").getD statement else statement

/-- The statements of the source, exported declarations in place of their exports. -/
def topLevel : List Cursor := src.top.namedChildren.map exportedDeclaration

def fieldIs (node : Node) (field text : String) : Bool := src.text? (node.child? field) == some text

/-! ## Variables -/

/-- The declarators of a statement that declares variables. -/
def declarators (statement : Cursor) : List Cursor :=
  if statement.kind = "lexical_declaration" ∨ statement.kind = "variable_declaration" then
    statement.namedChildren.filter (·.kind == "variable_declarator")
  else []

/-- The last declarator of a variable. -/
def declarator? (name : String) : Option Cursor :=
  (src.topLevel.flatMap declarators).reverse.find? fun d => src.fieldIs d.node "name" name

/-- The value that the last declarator of a variable gives it. -/
def findVariable (name : String) : Option Cursor := (src.declarator? name).bind (·.child? "value")

/-- The value behind an expression after at most `count` names were replaced by their values. -/
def resolveUpTo : Nat → Cursor → Cursor
  | 0, c => c.unwrapParens
  | count + 1, c =>
    let inner := c.unwrapParens
    if inner.kind = "identifier" then
      match src.findVariable (src.text inner.node) with
      | some value => resolveUpTo count value
      | none => inner
    else inner

/-- How many names are followed from one to the next. -/
def resolveLimit : Nat := 6

/-- The value behind an expression: parentheses are dropped and names are followed. -/
def resolve (c : Cursor) : Cursor := src.resolveUpTo resolveLimit c

/-! ## Types -/

/-- The object type that a statement declares under a name; `some none` if it declares the name
without one. -/
def declaredType? (name : String) (statement : Cursor) : Option (Option Cursor) :=
  if statement.kind = "type_alias_declaration" ∧ src.fieldIs statement.node "name" name then
    some (statement.child? "value")
  else if statement.kind = "interface_declaration" ∧ src.fieldIs statement.node "name" name then
    some (statement.child? "body")
  else none

/-- The object type behind the first declaration of a type name. -/
def findType (name : String) : Option Cursor := (src.topLevel.findSome? (src.declaredType? name)).join

/-! ## Assignments -/

/-- The assignment that a statement consists of. -/
def assignment? (statement : Cursor) : Option Cursor :=
  if statement.kind = "expression_statement" then
    statement.namedChildren.head?.filter (·.kind == "assignment_expression")
  else none

/-- The property and the value of a statement that assigns a property of a name. -/
def memberAssignment? (name : String) (statement : Cursor) : Option (String × Option Cursor) := do
  let assignment ← assignment? statement
  let left ← assignment.node.child? "left"
  let property ← left.child? "property"
  if left.kind = "member_expression" ∧ src.fieldIs left "object" name then
    pure (src.text property, assignment.child? "right")
  else none

/-- The properties that the source assigns to a name, with their values. -/
def memberAssignments (name : String) : List (String × Option Cursor) :=
  src.top.namedChildren.filterMap (src.memberAssignment? name)

/-! ## Imports -/

/-- The names that a node of an import statement binds. -/
def boundNames (node : Node) : List String :=
  if node.kind = "import_specifier" then
    (src.text? ((node.child? "alias").or (node.child? "name"))).toList
  else if node.kind = "namespace_import" then
    (src.text? (node.namedChildren.find? (·.kind == "identifier"))).toList
  else if node.kind = "import_clause" then
    (node.namedChildren.filter (·.kind == "identifier")).map src.text
  else []

/-- The names that a statement imports, with their module. -/
def importedBy (statement : Cursor) : List (String × String) :=
  match statement.kind == "import_statement", statement.node.child? "source" with
  | true, some source =>
    statement.walk.flatMap fun c =>
      (src.boundNames c.node).map fun name => (name, Text.unquote (src.text source))
  | _, _ => []

/-- The imported names with their modules; of several imports of a name the last counts. -/
def imports : Fields String := Fields.ofList (src.top.namedChildren.flatMap src.importedBy)

/-! ## Exports -/

/-- The names in the export clauses of a statement. -/
def clauseNames (statement : Node) : List String :=
  (statement.namedChildren.filter (·.kind == "export_clause")).flatMap fun clause =>
    clause.namedChildren.filterMap fun specifier => src.text? (specifier.child? "name")

/-- The text of a node that is a plain name. -/
def identifier? (node : Option Node) : Option String := src.text? (node.filter (·.kind == "identifier"))

/-- The left side is a place from which a module exports. -/
def isExportPlace (left : String) : Bool :=
  left == "module.exports" || "exports.".toList.isPrefixOf left.toList

/-- The names that a statement exports by reference. -/
def exportedBy (statement : Cursor) : List String :=
  if statement.kind = "export_statement" then
    (src.identifier? (statement.node.child? "value")).toList ++ src.clauseNames statement.node
  else match assignment? statement with
    | some assignment =>
      if isExportPlace ((src.text? (assignment.node.child? "left")).getD "") then
        (src.identifier? (assignment.node.child? "right")).toList
      else []
    | none => []

/-- The names that the source exports by reference. -/
def exportedNames : List String := src.top.namedChildren.flatMap src.exportedBy

end SourceFile

end ComponentDocs

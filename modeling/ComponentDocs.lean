import ComponentDocs.Main
import ComponentDocs.Metadata.Registry
import ComponentDocs.Proofs.Doclet.Description
import ComponentDocs.Proofs.Emission.Identifiers
import ComponentDocs.Proofs.Descriptor.Circular
import ComponentDocs.Proofs.Graph.Apart
import ComponentDocs.Proofs.Json.Sound
import ComponentDocs.Proofs.Json.Tokens
import ComponentDocs.Proofs.Json.RoundTrip
import ComponentDocs.Proofs.Batch.Build
import ComponentDocs.Proofs.Batch.Rebuild
import ComponentDocs.Proofs.Component.Bound
import ComponentDocs.Proofs.Component.Definitions
import ComponentDocs.Proofs.Metadata.Normal
import ComponentDocs.Proofs.Metadata.Outcome
import ComponentDocs.Proofs.Metadata.Syntax
import ComponentDocs.Proofs.Component.Exported
import ComponentDocs.Proofs.Component.Wrapped
import ComponentDocs.Proofs.Metadata.Names
import ComponentDocs.Proofs.Batch.Inputs
import ComponentDocs.Proofs.Doclet.LastWins
import ComponentDocs.Proofs.Doclet.Gaps
import ComponentDocs.Proofs.Doclet.Written
import ComponentDocs.Proofs.Emission.Digests
import ComponentDocs.Proofs.Doclet.TypeValue
import ComponentDocs.Proofs.Doclet.TypeLine
import ComponentDocs.Proofs.Source.Docblock
import ComponentDocs.Proofs.Source.Returns
import ComponentDocs.Proofs.Source.Siblings
import ComponentDocs.Proofs.Source.Pragma
import ComponentDocs.Proofs.Tree.Enclosing
import ComponentDocs.Proofs.Component.Markup
import ComponentDocs.Proofs.Documentation.PropPairs
import ComponentDocs.Proofs.Documentation.Composes
import ComponentDocs.Proofs.Descriptor.Declared
import ComponentDocs.Proofs.Descriptor.Composed
import ComponentDocs.Proofs.Descriptor.Expansion
import ComponentDocs.Proofs.Documentation.Annotated
import ComponentDocs.Proofs.Documentation.MethodDocs
import ComponentDocs.Proofs.Graph.Removal
import ComponentDocs.Proofs.Text.Frame
import ComponentDocs.Proofs.Metadata.ErrorPlace
import ComponentDocs.Proofs.Documentation.Defaults
import ComponentDocs.Proofs.Tree.Stack
import ComponentDocs.Proofs.Source.Chain
import ComponentDocs.Proofs.Path.Repository
import ComponentDocs.Proofs.Graph.Types

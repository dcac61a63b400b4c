import ComponentDocs.Component.Recognition

/-!
# Resolvers

Which components of a source are documented.

* `definitionsOf`: every component bound at the top level, in source order;
* `exportedDefinitions`, `singleDefinition`: the exported ones, and the only exported one;
* `Resolver`: what a caller may ask for.
-/

namespace ComponentDocs

/-- A node that has the shape of a component: how it is defined, the node that is recognised, and the
node that defines it. -/
structure Candidate where
  kind : DefinitionKind
  place : Cursor
  target : Cursor

/-- The candidate at a node. -/
def candidate? (src : SourceFile) (c : Cursor) : Option Candidate :=
  if classKinds.contains c.kind && isComponentClass src c.node then some ⟨.byClass, c, c⟩
  else if functionKinds.contains c.kind && returnsMarkup src c then some ⟨.byFunction, c, c⟩
  else (specOfCall? src c).map fun spec => ⟨.bySpecification, c, spec⟩

/-- The definition of a candidate at a position. A class or function that is bound to no name takes its
own, and a definition whose name is exported is exported. -/
def Candidate.define (src : SourceFile) (exports : List String) (candidate : Candidate) (anchor : Anchor) :
    Definition :=
  let own := if candidate.kind = .bySpecification then none else src.text? (candidate.target.node.child? "name")
  let name := anchor.name.or own
  { kind := candidate.kind, place := candidate.target, name,
    exported := anchor.exported || name.any exports.contains }

/-- The definition at a node. -/
def definition? (src : SourceFile) (exports : List String) (c : Cursor) : Option Definition := do
  let candidate ← candidate? src c
  let anchor ← anchor? src candidate.place
  pure (candidate.define src exports anchor)

/-- The bytes of a definition. -/
def Definition.range (definition : Definition) : Nat × Nat :=
  (definition.place.node.start, definition.place.node.stop)

/-- The definitions, of several with the same bytes the first. -/
def dedupe (seen : List (Nat × Nat)) : List Definition → List Definition
  | [] => []
  | definition :: rest =>
    if seen.contains definition.range then dedupe seen rest
    else definition :: dedupe (definition.range :: seen) rest

/-- Every component of a source that is bound at the top level, in source order. -/
def definitionsOf (src : SourceFile) : List Definition :=
  dedupe [] (src.top.walk.filterMap (definition? src src.exportedNames))

/-- The exported components. -/
def exportedDefinitions (src : SourceFile) : List Definition := (definitionsOf src).filter (·.exported)

/-- The exported component, if there is at most one. -/
def singleDefinition (src : SourceFile) : Except Fault (List Definition) :=
  match exportedDefinitions src with
  | _ :: _ :: _ => .error (.rejected .multipleDefinitions)
  | found => .ok found

/-! ## What a caller may ask for -/

/-- Chooses the definitions of a source. -/
abbrev Resolver := SourceFile → Except Fault (List Definition)

namespace Resolver

/-- Every component. -/
def all : Resolver := fun src => .ok (definitionsOf src)

/-- The exported components. -/
def exported : Resolver := fun src => .ok (exportedDefinitions src)

/-- The only exported component. -/
def single : Resolver := singleDefinition

end Resolver

end ComponentDocs

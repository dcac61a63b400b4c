import ComponentDocs.Component.Name
import ComponentDocs.Descriptor.PropType
import ComponentDocs.Documentation.Basic
import ComponentDocs.Documentation.Members
import ComponentDocs.Doclet.Override
import ComponentDocs.Outcome

/-!
# Handlers

A handler reads one aspect of a component and writes it into the documentation. Handlers run one after
the other, so a later one sees what an earlier one wrote.

* `Handler`, `Handler.run`;
* props: `propTypes`, `composition`, `propDocblocks`, `annotatedProps`, `defaultProps`;
* the component: `docblock`, `methods`, `methodDocs`, `displayName`;
* `Handler.standard`: the handlers that always run.
-/

namespace ComponentDocs

/-- Reads one aspect of a component into its documentation. -/
abbrev Handler := SourceFile → Definition → Documentation → Except Fault Documentation

namespace Handler

/-- A handler that cannot fail. -/
def always (f : SourceFile → Definition → Documentation → Documentation) : Handler :=
  fun src definition doc => .ok (f src definition doc)

/-- All handlers in order, each noted as a call. -/
def run (handlers : List Handler) (src : SourceFile) (definition : Definition) : Outcome Documentation :=
  handlers.zipIdx.foldlM
    (fun doc entry => Outcome.call (.handler entry.2 definition) (entry.1 src definition doc)) Documentation.empty

/-! ## Props -/

/-- The object literal that declares the types of the props. -/
def propTypesObject? (src : SourceFile) (definition : Definition) : Option Cursor :=
  (definition.member? src "propTypes").filter (·.kind == "object")

/-- The entries of the object literal that declares the types of the props. -/
def propTypeMembers (src : SourceFile) (definition : Definition) : List Member :=
  ((propTypesObject? src definition).map src.members).getD []

/-- Writes the type of a prop and whether it is required. -/
def propType (src : SourceFile) (doc : Documentation) : Member → Except Fault Documentation
  | .keyed pair =>
    match keyName? src pair, pair.child? "value" with
    | some name, some value => do
      let (inner, required) := unwrapRequired src value
      let type ← PropType.describe src inner
      return doc.changeProp name fun prop =>
        Fields.set (Fields.set prop "type" type.toJson) "required" (.bool required)
    | _, _ => .ok doc
  | _ => .ok doc

def propTypes : Handler := fun src definition doc =>
  (propTypeMembers src definition).foldlM (propType src) doc

/-- The module from which something is spread into the types of the props. -/
def spreadModule? (src : SourceFile) (imports : Fields String) : Member → Option String
  | .spread argument => do
    let head ← argument.node.leftmostObject
    let module ← Fields.get? imports (src.text head)
    if module = "" then none else some module
  | _ => none

/-- The modules whose props are taken over. -/
def composition : Handler := always fun src definition doc =>
  ((propTypeMembers src definition).filterMap (spreadModule? src src.imports)).foldl Documentation.addComposed doc

/-- The documentation comments of the props. -/
def propDocblocks : Handler := always fun src definition doc =>
  (propTypeMembers src definition).foldl
    (fun doc member =>
      match member with
      | .keyed pair =>
        match keyName? src pair with
        | some name =>
          doc.changeProp name fun prop =>
            Fields.set prop "description" (.str ((src.docblockBefore pair).getD ""))
        | none => doc
      | _ => doc)
    doc

/-- The key under which types of a flavor are written. -/
def typeKey : Flavor → String
  | .flow => "flowType"
  | .typescript => "tsType"

/-- Writes the annotated type of a prop; what is known already of the rest stays. -/
def annotateProp (src : SourceFile) (flavor : Flavor) (doc : Documentation) (signature : PropSignature) :
    Documentation :=
  doc.changeProp signature.name fun prop =>
    let type := (src.describeType (signature.type.map (·.node))).toJson
    let typed := Fields.setNew (Fields.set prop (typeKey flavor) type) "required" (.bool signature.required)
    let text := signature.docblock.getD ""
    if text ≠ "" ∧ (Record.filled? typed "description").isNone then
      Fields.set typed "description" (.str text)
    else Fields.setNew typed "description" (.str "")

/-- The props that are typed with annotations. -/
def annotatedProps : Handler := always fun src definition doc =>
  match src.language.flavor, definition.propsType? src with
  | some flavor, some type => (src.propSignatures type).foldl (annotateProp src flavor) doc
  | _, _ => doc

/-! ## Defaults -/

/-- The value with the defaults of the props: what `getDefaultProps` of a specification returns, or the
member `defaultProps`. -/
def defaultsObject? (src : SourceFile) (definition : Definition) : Option Cursor :=
  let returned := if definition.kind = .bySpecification then
      (definition.specMethod? src "getDefaultProps").bind returnedValue
    else none
  match returned with
  | some value => some (src.resolve value)
  | none => definition.member? src "defaultProps"

/-- The default that an entry of an object literal gives. -/
def memberDefault? (src : SourceFile) : Member → Option (String × Cursor)
  | .keyed pair => do pure (← keyName? src pair, ← pair.child? "value")
  | .shorthand name => some (src.text name.node, name)
  | .spread _ => none

/-- The pattern of a parameter that is taken apart. -/
def parameterPattern? (parameter : Cursor) : Option Cursor :=
  let pattern := if parameterKinds.contains parameter.kind then parameter.child? "pattern" else some parameter
  let plain := pattern.bind fun c => if c.kind = "assignment_pattern" then c.child? "left" else some c
  plain.filter (·.kind == "object_pattern")

/-- The default that an entry of a pattern gives. -/
def patternDefault? (src : SourceFile) (c : Cursor) : Option (String × Cursor) :=
  if c.kind = "object_assignment_pattern" then do
    pure (src.text (← c.node.child? "left"), ← c.child? "right")
  else if c.kind = "pair_pattern" then do
    let key ← c.node.child? "key"
    let value ← (c.child? "value").filter (·.kind == "assignment_pattern")
    pure (Text.unquote (src.text key), ← value.child? "right")
  else none

/-- The defaults in the parameter of a function component. -/
def parameterDefaults (src : SourceFile) (definition : Definition) : List (String × Cursor) :=
  match definition.propsParameter?.bind parameterPattern? with
  | some pattern => pattern.namedChildren.filterMap (patternDefault? src)
  | none => []

/-- The defaults of the props in the order in which they count. -/
def defaults (src : SourceFile) (definition : Definition) : List (String × Cursor) :=
  let object := (defaultsObject? src definition).filter (·.kind == "object")
  ((object.map src.members).getD []).filterMap (memberDefault? src) ++ parameterDefaults src definition

def defaultProps : Handler := always fun src definition doc =>
  (defaults src definition).foldl
    (fun doc entry =>
      doc.changeProp entry.1 fun prop =>
        Fields.set prop "defaultValue" (Doclet.defaultValue (src.text entry.2.node) (isComputed entry.2)))
    doc

/-! ## The component -/

/-- The documentation comment of the component. -/
def docblock : Handler := always fun src definition doc =>
  doc.set "description" (.str ((src.docblockFor definition.place).getD ""))

/-- The methods that every component may have. -/
def lifecycleMethods : List String :=
  ["constructor", "render", "componentWillMount", "UNSAFE_componentWillMount", "componentDidMount",
   "componentWillReceiveProps", "UNSAFE_componentWillReceiveProps", "shouldComponentUpdate",
   "componentWillUpdate", "UNSAFE_componentWillUpdate", "componentDidUpdate", "componentWillUnmount",
   "componentDidCatch", "getDerivedStateFromProps", "getDerivedStateFromError",
   "getSnapshotBeforeUpdate", "getChildContext", "getDefaultProps", "getInitialState"]

/-- The keys that describe the component itself. -/
def componentKeys : List String :=
  ["propTypes", "defaultProps", "displayName", "contextTypes", "childContextTypes", "contextType", "mixins",
   "statics", "state"]

/-- The name of a method of the component's own. -/
def ownMethod? (name : Option String) : Option String :=
  name.filter fun name => name ≠ "" && !lifecycleMethods.contains name && !componentKeys.contains name

/-- The method of a class member. -/
def classMethod? (src : SourceFile) (c : Cursor) : Option Method :=
  if c.isMethod then
    (ownMethod? (src.text? (c.node.child? "name"))).map fun name =>
      Method.ofFunction src name (some c) (src.docblockBefore c) (modifiersOf c)
  else if c.isField then do
    let value ← (c.child? "value").filter Cursor.isFunction
    let name ← ownMethod? (src.text? c.fieldName?)
    let modifiers := (modifiersOf c).filter (· == "static") ++ (modifiersOf value).filter (· == "async")
    pure (Method.ofFunction src name (some value) (src.docblockBefore c) modifiers)
  else none

/-- The method of a member of a specification. -/
def specMemberMethod? (src : SourceFile) (c : Cursor) : Option Method :=
  if c.isMethod then
    (ownMethod? (src.text? (c.node.child? "name"))).map fun name =>
      Method.ofFunction src name (some c) (src.docblockBefore c) (modifiersOf c)
  else do
    let value ← (c.child? "value").filter Cursor.isFunction
    let name ← ownMethod? (keyName? src c)
    pure (Method.ofFunction src name (some value) (src.docblockBefore c) (modifiersOf value))

/-- The documentation comment of the statement that assigns a value. -/
def assignmentDocblock (src : SourceFile) (value : Cursor) : Option String := do
  let statement ← (← value.parent?).parent?
  src.docblockBefore statement

/-- The static method that an assignment to the name of a function component makes. -/
def assignedMethod? (src : SourceFile) (entry : String × Option Cursor) : Option Method := do
  let value ← entry.2.filter Cursor.isFunction
  if componentKeys.contains entry.1 then none
  else pure (Method.ofFunction src entry.1 (some value) (assignmentDocblock src value) ["static"])

/-- The methods assigned to the name of a function component. -/
def assignedMethods (src : SourceFile) (definition : Definition) : List Method :=
  match definition.kind, definition.name with
  | .byFunction, some name =>
    if name = "" then [] else (src.memberAssignments name).filterMap (assignedMethod? src)
  | _, _ => []

/-- The methods of the component. -/
def methods : Handler := always fun src definition doc =>
  doc.setMethods (definition.classMembers.filterMap (classMethod? src)
    ++ definition.specMembers.filterMap (specMemberMethod? src) ++ assignedMethods src definition)

/-- What the docblocks of the methods say. -/
def methodDocs : Handler := always fun _ _ doc => doc.changeMethods Method.document

/-! ## Names -/

/-- The kinds of string literals. -/
def stringKinds : List String := ["string", "template_string"]

/-- The name that the member `displayName` gives. -/
def explicitName? (src : SourceFile) (definition : Definition) : Option String :=
  (definition.member? src "displayName").map fun value =>
    if stringKinds.contains value.kind then Text.unquote (src.text value.node) else src.text value.node

/-- The name of the component: an explicit one, the name it is bound to, its own, or one made of the
path of its file. The first that is not empty counts. -/
def nameOf (path : String) (src : SourceFile) (definition : Definition) : String :=
  let names := [explicitName? src definition, definition.name, definition.ownName src]
  (names.findSome? (·.bind Method.nonEmpty?)).getD (inferName path)

/-- The name of the component. -/
def displayName (path : String) : Handler := always fun src definition doc =>
  doc.set "displayName" (.str (nameOf path src definition))

/-! ## The standard handlers -/

/-- The handlers that always run, before those for the name and those of the caller. -/
def standard : List Handler :=
  [propTypes, composition, propDocblocks, annotatedProps, defaultProps, docblock, methods, methodDocs]

end Handler

end ComponentDocs

import ComponentDocs.Documentation.Method

/-!
# Documentation

The record that handlers fill in for one component: fields, descriptors of props, and the modules whose
props it takes over.

* `Documentation`, `Documentation.empty`;
* `set`, `get`, `methods`: fields; `prop`, `changeProp`: descriptors of props; `addComposed`: modules;
* `Documentation.toRecord`: everything in one record.
-/

namespace ComponentDocs

/-- The value of a field. -/
inductive FieldValue where
  | plain (value : Json)
  | methods (methods : List Method)

def FieldValue.toJson : FieldValue → Json
  | plain value => value
  | methods found => .arr (found.map Method.toJson)

/-- What is known of a component. -/
structure Documentation where
  fields : Fields FieldValue
  props : Fields Record
  composes : List String

namespace Documentation

/-- Nothing is known. -/
def empty : Documentation := ⟨[], [], []⟩

/-! ## Fields -/

/-- The documentation with a field. -/
def set (doc : Documentation) (key : String) (value : Json) : Documentation :=
  { doc with fields := Fields.set doc.fields key (.plain value) }

/-- The value of a field, or `default`. -/
def get (doc : Documentation) (key : String) (default : Json) : Json :=
  ((Fields.get? doc.fields key).map FieldValue.toJson).getD default

def setMethods (doc : Documentation) (methods : List Method) : Documentation :=
  { doc with fields := Fields.set doc.fields "methods" (.methods methods) }

def methods (doc : Documentation) : List Method :=
  match Fields.get? doc.fields "methods" with
  | some (.methods found) => found
  | _ => []

/-- The documentation with every method changed. -/
def changeMethods (doc : Documentation) (f : Method → Method) : Documentation :=
  match Fields.get? doc.fields "methods" with
  | some (.methods found) => doc.setMethods (found.map f)
  | _ => doc

/-! ## Props -/

/-- The descriptor of a prop, empty if the prop is new. -/
def prop (doc : Documentation) (name : String) : Record := (Fields.get? doc.props name).getD []

/-- The documentation with the descriptor of a prop changed; a new prop comes last. -/
def changeProp (doc : Documentation) (name : String) (f : Record → Record) : Documentation :=
  { doc with props := Fields.modify doc.props name [] f }

/-- The documentation with a module whose props are taken over. -/
def addComposed (doc : Documentation) (module : String) : Documentation :=
  if doc.composes.contains module then doc else { doc with composes := doc.composes ++ [module] }

/-! ## One record -/

/-- The descriptors of the props under their names. -/
def propsJson (props : Fields Record) : Json := .obj (props.map fun entry => (entry.1, .obj entry.2))

/-- The fields, then the props and the modules if there are any. -/
def toRecord (doc : Documentation) : Record :=
  let fields : Record := doc.fields.map fun entry => (entry.1, entry.2.toJson)
  let withProps := if doc.props.isEmpty then fields else Fields.set fields "props" (propsJson doc.props)
  if doc.composes.isEmpty then withProps
  else Fields.set withProps "composes" (.arr (doc.composes.map .str))

end Documentation

end ComponentDocs

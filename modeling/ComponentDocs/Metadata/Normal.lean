import ComponentDocs.Metadata.Component

/-!
# Normal records

The records of components in the form in which they are stored: every component and prop has its raw
description under `docblock`, its doclets, and a description without doclets; props are a list. What a
handler stored has to be of the type that is read here.

* `normalizeProp`, `normalizeComponent`, `normalizeOne`, `normalizeAll`;
* `withoutTrailingDigits`, `dropNameDigits`: the name of the only component of a file.
-/

namespace ComponentDocs

/-- The record with a text under `docblock`, the doclets of the text, and the text without them as its description. -/
def splitDescription (record : Record) (text : String) : Record :=
  Fields.set
    (Fields.set (Fields.set record "docblock" (.str text)) "doclets" (.arr ((Doclet.parse text).map Doclet.toJson)))
    "description" (.str (Doclet.clean text))

/-! ## Props -/

/-- The record of a prop: only into an object its parts are written. -/
def rawProp : Json → Except Fault Record
  | .obj fields => .ok fields
  | .arr _ => .error (.value .badIndex)
  | value => .error (.value (.notAssignable value.typeName))

/-- The normal record of a prop. -/
def normalizeProp (entry : String × Json) : Outcome Record := do
  let raw ← rawProp entry.2
  let text ← Record.description raw
  let doclets := Doclet.parse text
  Outcome.report (Doclet.foundLog entry.1 doclets ++ Doclet.overrideLog doclets)
  Doclet.overrideAll (splitDescription (Fields.set raw "name" (.str entry.1)) text) doclets

/-! ## Components -/

/-- The props of a component under their names, none if it has none. -/
def rawProps (component : Record) : Except Fault Record :=
  match Record.filled? component "props" with
  | none => .ok []
  | some (.obj props) => .ok props
  | some value => .error (.value (.noOperation value.typeName "items"))

/-- The normal record of a component. -/
def normalizeComponent (raw : Record) : Outcome Record := do
  let text ← Record.description raw
  let props ← (← rawProps raw).mapM normalizeProp
  pure (Fields.set (splitDescription raw text) "props" (.arr (props.map .obj)))

/-! ## Names -/

/-- The text without digits at its end, or before a line feed at its end. -/
def withoutTrailingDigits (cs : List Char) : List Char :=
  match cs.reverse with
  | '\n' :: rest => (rest.dropWhile Text.isDigit).reverse ++ ['\n']
  | reversed => (reversed.dropWhile Text.isDigit).reverse

/-- The record of the only component of a file: its name without digits at the end. -/
def dropNameDigits (component : Record) : Except Fault Record :=
  match Record.filled? component "displayName" with
  | none => .ok component
  | some (.str name) =>
    .ok (Fields.set component "displayName" (.str (String.ofList (withoutTrailingDigits name.toList))))
  | some value => .error (.value (.notText value.typeName))

/-- The normal record of a component, which loses the digits of its name if there is no other one. -/
def normalizeOne (alone : Bool) (component : Record) : Outcome Record := do
  let renamed ← if alone then dropNameDigits component else pure component
  normalizeComponent renamed

/-- The normal records of the components of a file. -/
def normalizeAll (components : List Record) : Outcome (List Record) :=
  components.mapM (normalizeOne (components.length == 1))

end ComponentDocs

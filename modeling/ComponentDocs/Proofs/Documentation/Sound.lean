import ComponentDocs.Documentation.Handler
import ComponentDocs.Metadata.Extraction
import ComponentDocs.Proofs.Descriptor.Sound
import ComponentDocs.Proofs.Outcome

/-!
# Sound documentation

What handlers write can be written as text and read back: no name is there twice.

* `Method.Sound`, `Method.Sound.document`: methods, and what their docblocks add;
* `Documentation.Sound`: the documentation of a component, `Documentation.Sound.toRecord`: its record;
* `Handler.Keeps`, `CallerHandler.Keeps`: a handler keeps documentation sound;
* `Handler.sound_run`: so do handlers that run one after the other.
-/

namespace ComponentDocs

/-! ## Methods -/

namespace Param

/-- The notes as fields. -/
def noteFields (notes : List ParamNote) : Record := notes.map ParamNote.field

theorem noteFields_putDescription (text : String) (notes : List ParamNote) :
    noteFields (putDescription text notes) = Fields.set (noteFields notes) "description" (.str text) := by
  unfold noteFields
  induction notes with
  | nil => rfl
  | cons note rest ih =>
    cases note with
    | isOptional => simp [putDescription, ih, ParamNote.field, Fields.set]
    | description old => simp [putDescription, ParamNote.field, Fields.set]

theorem noteFields_markOptional (param : Param) :
    noteFields param.markOptional.notes = Fields.setNew (noteFields param.notes) "optional" (.bool true) := by
  have hhas : Fields.has (noteFields param.notes) "optional" = param.notes.contains .isOptional := by
    unfold noteFields
    induction param.notes with
    | nil => rfl
    | cons note rest ih =>
      rw [Fields.has] at ih ⊢
      cases note <;> simp_all [ParamNote.field, Fields.get?_cons]
  unfold markOptional Fields.setNew
  rw [hhas]
  split_ifs
  · rfl
  · simp [noteFields, ParamNote.field]

theorem sound_toJson {param : Param} (h : Record.Sound (noteFields param.notes)) : param.toJson.Sound := by
  have hnames : ∀ name ∈ Fields.names (noteFields param.notes), name = "optional" ∨ name = "description" := by
    intro name hname
    obtain ⟨field, hfield, rfl⟩ := List.mem_map.mp hname
    obtain ⟨note, -, rfl⟩ := List.mem_map.mp hfield
    cases note <;> simp [ParamNote.field]
  have htype : ((param.type.map TypeDescriptor.toJson).getD .null).Sound := by
    cases param.type with
    | none => simp [Json.Sound]
    | some type => exact type.sound_toJson
  have htyped : Record.Sound (("type", (param.type.map TypeDescriptor.toJson).getD .null) :: noteFields param.notes) :=
    h.cons (fun hmem => by rcases hnames _ hmem with h | h <;> simp at h) htype
  refine Record.sound_obj_iff.mpr (htyped.cons ?_ (Json.sound_str _))
  rw [Fields.names_cons, List.mem_cons, not_or]
  exact ⟨by simp, fun hmem => by rcases hnames _ hmem with h | h <;> simp at h⟩

end Param

namespace Returns

/-- The notes as fields. -/
def noteFields (returns : Returns) : Record := returns.map ReturnsNote.field

theorem noteFields_describe (text : String) (returns : Returns) :
    noteFields (describe text returns) = Fields.set (noteFields returns) "description" (.str text) := by
  unfold noteFields
  induction returns with
  | nil => rfl
  | cons note rest ih =>
    cases note with
    | type t => simp [describe, ih, ReturnsNote.field, Fields.set]
    | description old => simp [describe, ReturnsNote.field, Fields.set]

theorem noteFields_withType (returns : Returns) (type : TypeDescriptor) :
    noteFields (returns.withType type) = Fields.setNew (noteFields returns) "type" type.toJson := by
  have hhas : Fields.has (noteFields returns) "type" = (type? returns).isSome := by
    unfold noteFields type?
    induction returns with
    | nil => rfl
    | cons note rest ih =>
      rw [Fields.has] at ih ⊢
      cases note <;> simp_all [ReturnsNote.field, Fields.get?_cons]
  unfold withType Fields.setNew
  rw [hhas]
  split_ifs
  · rfl
  · simp [noteFields, ReturnsNote.field]

theorem sound_toJson {returns : Returns} (h : Record.Sound (noteFields returns)) : returns.toJson.Sound := by
  unfold toJson
  split_ifs
  · simp [Json.Sound]
  · exact Record.sound_obj_iff.mpr h

end Returns

namespace Method

/-- No parameter has notes of one kind twice, nor has the returned value. -/
structure Sound (method : Method) : Prop where
  params : ∀ param ∈ method.params, Record.Sound (Param.noteFields param.notes)
  returns : Record.Sound (Returns.noteFields method.returns)

variable {method : Method}

theorem sound_toJson (h : method.Sound) : method.toJson.Sound := by
  have htext : ∀ text, (Json.ofText? text).Sound := by
    intro text
    cases text <;> simp [Json.ofText?, Json.Sound]
  have hmodifiers : (Json.arr (method.modifiers.map .str)).Sound := by
    rw [Json.sound_arr_iff]
    simp [Json.Sound]
  have hparams : (Json.arr (method.params.map Param.toJson)).Sound := by
    rw [Json.sound_arr_iff]
    intro item hitem
    obtain ⟨param, hparam, rfl⟩ := List.mem_map.mp hitem
    exact Param.sound_toJson (h.params param hparam)
  have hreturns := Returns.sound_toJson h.returns
  refine Record.sound_obj_iff.mpr ⟨by simp [Fields.names], fun field hfield => ?_⟩
  simp only [List.mem_cons, List.not_mem_nil, or_false] at hfield
  rcases hfield with rfl | rfl | rfl | rfl | rfl | rfl
  · exact Json.sound_str _
  · exact htext _
  · exact hmodifiers
  · exact hparams
  · exact hreturns
  · exact htext _

theorem mem_changeLast {name : String} {f : Param → Param} {params : List Param} {param : Param}
    (h : param ∈ changeLast name f params) : param ∈ params ∨ ∃ old ∈ params, param = f old := by
  induction params with
  | nil => exact absurd h List.not_mem_nil
  | cons first rest ih =>
    rw [changeLast] at h
    split_ifs at h
    · rcases List.mem_cons.mp h with rfl | h
      · exact Or.inr ⟨first, List.mem_cons_self, rfl⟩
      · exact Or.inl (List.mem_cons_of_mem _ h)
    · rcases List.mem_cons.mp h with rfl | h
      · exact Or.inl List.mem_cons_self
      · rcases ih h with h | ⟨old, hold, rfl⟩
        · exact Or.inl (List.mem_cons_of_mem _ h)
        · exact Or.inr ⟨old, List.mem_cons_of_mem _ hold, rfl⟩

theorem sound_applyParamText {text : ParamText} {optional : Bool} {param : Param}
    (h : Record.Sound (Param.noteFields param.notes)) :
    Record.Sound (Param.noteFields (applyParamText text optional param).notes) := by
  have hdescribed : ∀ described : Param, Record.Sound (Param.noteFields described.notes) →
      Record.Sound (Param.noteFields (if optional then described.markOptional else described).notes) := by
    intro described hdescribed
    split_ifs
    · rw [Param.noteFields_markOptional]
      exact hdescribed.setNew (Json.sound_bool true)
    · exact hdescribed
  unfold applyParamText
  apply hdescribed
  split_ifs
  · exact h
  · rw [Param.describe, Param.noteFields_putDescription]
    exact h.set (Json.sound_str _)

theorem Sound.applyDoclet (h : method.Sound) (doclet : Doclet) : (method.applyDoclet doclet).Sound := by
  unfold Method.applyDoclet
  split_ifs
  · unfold applyParam
    dsimp only
    cases (ParamText.parse doclet.value).name with
    | none => exact h
    | some written =>
      refine ⟨fun param hparam => ?_, h.returns⟩
      rcases mem_changeLast hparam with hparam | ⟨old, hold, rfl⟩
      · exact h.params param hparam
      · exact sound_applyParamText (h.params old hold)
  · refine ⟨h.params, ?_⟩
    have htyped : ∀ returns : Returns, Record.Sound (Returns.noteFields returns) → ∀ text : String,
        ∀ none : Bool, Record.Sound (Returns.noteFields (if none then returns else Returns.describe text returns)) := by
      intro returns hreturns text none
      split_ifs
      · exact hreturns
      · rw [Returns.noteFields_describe]
        exact hreturns.set (Json.sound_str _)
    apply htyped
    cases writtenType? (ReturnsText.parse doclet.value).type with
    | none => exact h.returns
    | some type =>
      rw [Returns.noteFields_withType]
      exact h.returns.setNew type.sound_toJson
  · exact h

theorem Sound.document (h : method.Sound) : method.document.Sound := by
  have hfold : ∀ (doclets : List Doclet) (method : Method), method.Sound →
      (doclets.foldl Method.applyDoclet method).Sound := by
    intro doclets
    induction doclets with
    | nil => exact fun _ h => h
    | cons doclet doclets ih => exact fun method h => ih _ (h.applyDoclet doclet)
  unfold Method.document
  split
  · exact h
  · exact hfold _ _ ⟨h.params, h.returns⟩

theorem sound_ofFunction (src : SourceFile) (name : String) (function : Option Cursor) (docblock : Option String)
    (modifiers : List String) : (ofFunction src name function docblock modifiers).Sound := by
  have hoptional : Record.Sound (Param.noteFields [.isOptional]) :=
    Record.sound_nil.cons (by simp [Fields.names]) (Json.sound_bool true)
  have hnode : ∀ c, Record.Sound (Param.noteFields (Param.ofNode src c).notes) := by
    intro c
    unfold Param.ofNode
    dsimp only
    split_ifs
    · exact hoptional
    · exact Record.sound_nil
    · exact hoptional
    · exact Record.sound_nil
  have hparams : ∀ f, ∀ param ∈ Param.ofFunction src f, Record.Sound (Param.noteFields param.notes) := by
    intro f param hparam
    unfold Param.ofFunction at hparam
    split at hparam
    · obtain ⟨c, -, rfl⟩ := List.mem_map.mp hparam
      exact hnode c
    · rw [List.mem_singleton.mp hparam]
      exact Record.sound_nil
    · exact absurd hparam List.not_mem_nil
  constructor
  · intro param hparam
    cases function with
    | none => exact absurd hparam List.not_mem_nil
    | some f => exact hparams f param hparam
  · unfold ofFunction
    dsimp only
    split
    · exact Record.sound_nil.cons (by simp [Fields.names]) (TypeDescriptor.sound_toJson _)
    · exact Record.sound_nil

end Method

/-! ## Documentation -/

/-- The value of a field is sound. -/
def FieldValue.Sound : FieldValue → Prop
  | plain value => value.Sound
  | methods found => ∀ method ∈ found, method.Sound

theorem FieldValue.sound_toJson {value : FieldValue} (h : value.Sound) : value.toJson.Sound := by
  cases value with
  | plain value => exact h
  | methods found =>
    rw [toJson, Json.sound_arr_iff]
    intro item hitem
    obtain ⟨method, hmethod, rfl⟩ := List.mem_map.mp hitem
    exact Method.sound_toJson (h method hmethod)

namespace Documentation

/-- No field or prop is there twice, and the values are sound. -/
structure Sound (doc : Documentation) : Prop where
  fieldNames : (Fields.names doc.fields).Nodup
  fields : ∀ field ∈ doc.fields, field.2.Sound
  propNames : (Fields.names doc.props).Nodup
  props : ∀ prop ∈ doc.props, Record.Sound prop.2

variable {doc : Documentation}

theorem sound_empty : empty.Sound := ⟨List.nodup_nil, by simp [empty], List.nodup_nil, by simp [empty]⟩

theorem Sound.setField (h : doc.Sound) (key : String) {value : FieldValue} (hvalue : value.Sound) :
    ({ doc with fields := Fields.set doc.fields key value } : Documentation).Sound := by
  refine ⟨Fields.nodup_names_set h.fieldNames key value, fun field hfield => ?_, h.propNames, h.props⟩
  rcases Fields.mem_set hfield with rfl | hfield
  · exact hvalue
  · exact h.fields field hfield

theorem Sound.set (h : doc.Sound) (key : String) {value : Json} (hvalue : value.Sound) : (doc.set key value).Sound :=
  h.setField key (show (FieldValue.plain value).Sound from hvalue)

theorem Sound.setMethods (h : doc.Sound) {methods : List Method} (hmethods : ∀ method ∈ methods, method.Sound) :
    (doc.setMethods methods).Sound :=
  h.setField "methods" (show (FieldValue.methods methods).Sound from hmethods)

theorem Sound.changeMethods (h : doc.Sound) {f : Method → Method} (hf : ∀ method, method.Sound → (f method).Sound) :
    (doc.changeMethods f).Sound := by
  unfold Documentation.changeMethods
  split
  · rename_i found hfound
    refine h.setMethods fun method hmethod => ?_
    obtain ⟨old, hold, rfl⟩ := List.mem_map.mp hmethod
    exact hf old (h.fields _ (Fields.mem_of_get? hfound) old hold)
  · exact h

theorem Sound.changeProp (h : doc.Sound) (name : String) {f : Record → Record}
    (hf : ∀ record, Record.Sound record → Record.Sound (f record)) : (doc.changeProp name f).Sound := by
  refine ⟨h.fieldNames, h.fields, Fields.nodup_names_set h.propNames name _, fun prop hprop => ?_⟩
  rcases Fields.mem_set hprop with rfl | hprop
  · apply hf
    cases hget : Fields.get? doc.props name with
    | none => exact Record.sound_nil
    | some record => exact h.props _ (Fields.mem_of_get? hget)
  · exact h.props prop hprop

theorem Sound.addComposed (h : doc.Sound) (module : String) : (doc.addComposed module).Sound := by
  unfold Documentation.addComposed
  split_ifs
  · exact h
  · exact ⟨h.fieldNames, h.fields, h.propNames, h.props⟩

theorem Sound.toRecord (h : doc.Sound) : Record.Sound doc.toRecord := by
  have hfields : Record.Sound (doc.fields.map fun entry => (entry.1, entry.2.toJson)) := by
    constructor
    · simpa [Fields.names, Function.comp_def] using h.fieldNames
    · intro field hfield
      obtain ⟨entry, hentry, rfl⟩ := List.mem_map.mp hfield
      exact FieldValue.sound_toJson (h.fields entry hentry)
  have hprops : (propsJson doc.props).Sound := by
    refine Record.sound_obj_iff.mpr ⟨?_, fun field hfield => ?_⟩
    · simpa [Fields.names, Function.comp_def] using h.propNames
    · obtain ⟨entry, hentry, rfl⟩ := List.mem_map.mp hfield
      exact Record.sound_obj_iff.mpr (h.props entry hentry)
  have hcomposes : (Json.arr (doc.composes.map .str)).Sound := by
    rw [Json.sound_arr_iff]
    simp [Json.Sound]
  unfold Documentation.toRecord
  dsimp only
  split_ifs
  · exact hfields
  · exact hfields.set hprops
  · exact hfields.set hcomposes
  · exact (hfields.set hprops).set hcomposes

end Documentation

/-! ## Handlers -/

namespace Handler

/-- The handler keeps documentation sound. -/
def Keeps (handler : Handler) : Prop :=
  ∀ src definition doc after, doc.Sound → handler src definition doc = .ok after → after.Sound

/-- Handlers that keep documentation sound do so one after the other. -/
theorem sound_run {handlers : List Handler} (h : ∀ handler ∈ handlers, handler.Keeps) {src : SourceFile}
    {definition : Definition} {doc : Documentation} (hrun : (run handlers src definition).result = .ok doc) : doc.Sound := by
  rw [result_run] at hrun
  exact foldlM_induction (fun doc handler hhandler after => h handler hhandler src definition doc after)
    Documentation.sound_empty hrun

end Handler

/-- The handler of a caller keeps documentation sound for every file with a sound record. -/
def CallerHandler.Keeps (handler : CallerHandler) : Prop := ∀ file, Record.Sound file → (handler file).Keeps

end ComponentDocs

import ComponentDocs.Proofs.Emission.File
import ComponentDocs.Proofs.Metadata.Normal

/-!
# Sound metadata

The normal records of the components of a file can be written as text and read back, and their props have names.

* `normalizeProp_spec`: a normal prop is sound and has a name;
* `IsNormal`: a sound component whose props have names;
* **`isNormal_extract`**: so are all components of a source, if the handlers of the caller keep documentation sound.
-/

namespace ComponentDocs

/-! ## Props -/

theorem sound_splitDescription {record : Record} (h : Record.Sound record) (text : String) :
    Record.Sound (splitDescription record text) := by
  have hdoclets : ∀ doclets : List Doclet, (Json.arr (doclets.map Doclet.toJson)).Sound := by
    intro doclets
    rw [Json.sound_arr_iff]
    simp [Doclet.toJson, Json.Sound, Json.SoundFields, Fields.names]
  exact ((h.set (Json.sound_str _)).set (hdoclets _)).set (Json.sound_str _)

namespace Json

theorem sound_of_asField {index : Nat} {value : Json} {field : String × Json} (h : value.Sound)
    (hfield : asField index value = .ok field) : field.2.Sound := by
  unfold asField at hfield
  split at hfield
  · obtain ⟨name, -, hfield⟩ := bind_eq_ok_iff.mp hfield
    cases hfield
    exact sound_arr_iff.mp h _ (by simp)
  · cases hfield
  · cases hfield
    exact sound_str _
  · cases hfield
  · split at hfield
    · cases hfield
      exact sound_str _
    · cases hfield
  · cases hfield

theorem sound_of_copied {value : Json} {copy : Record} (h : value.Sound) (hcopy : value.copied = .ok copy) :
    Record.Sound copy := by
  unfold copied at hcopy
  split at hcopy
  · cases hcopy
    exact Record.sound_obj_iff.mp h
  · next items =>
    cases hfields : items.zipIdx.mapM fun item => asField item.2 item.1 with
    | error problem =>
      rw [hfields] at hcopy
      cases hcopy
    | ok fields =>
      rw [hfields] at hcopy
      cases hcopy
      refine Record.sound_nil.merge fun field hfield => ?_
      obtain ⟨item, hitem, hread⟩ := exists_of_mapM_ok hfields hfield
      exact sound_of_asField (sound_arr_iff.mp h _ (List.fst_mem_of_mem_zipIdx hitem)) hread
  · split_ifs at hcopy
    cases hcopy
    exact Record.sound_nil
  · cases hcopy

end Json

namespace Doclet

theorem sound_override {prop : Record} (h : Record.Sound prop) (doclet : Doclet) :
    Record.Sound (override prop doclet) := by
  unfold override
  split_ifs
  · exact h.set (WrittenType.sound_toJson _)
  · exact h.set (Json.sound_bool _)
  · exact h.set (sound_defaultValue _ _)
  · exact h

theorem sound_overrideAll {prop result : Record} (h : Record.Sound prop) {doclets : List Doclet}
    (hresult : overrideAll prop doclets = .ok result) : Record.Sound result := by
  have hfold : Record.Sound (doclets.foldl override prop) :=
    List.foldlRecOn doclets override h fun _ hnow doclet _ => sound_override hnow doclet
  rcases settleType_cases hresult with rfl | ⟨-, type, copy, htype, hcopy, rfl⟩
  · exact hfold
  · obtain ⟨key, -, rfl⟩ := annotatedType?_eq htype
    exact hfold.set (Record.sound_obj_iff.mpr (Json.sound_of_copied (hfold.get key) hcopy))

end Doclet

theorem normalizeProp_spec {entry : String × Json} {prop : Record} (h : entry.2.Sound)
    (hprop : (normalizeProp entry).result = .ok prop) : Record.Sound prop ∧ Fields.has prop "name" = true := by
  obtain ⟨raw, text, hraw, -, hoverridden⟩ := normalizeProp_ok_iff.mp hprop
  rw [hraw, Record.sound_obj_iff] at h
  have hnamed : Record.Sound (Fields.set raw "name" (.str entry.1)) := h.set (Json.sound_str entry.1)
  refine ⟨Doclet.sound_overrideAll (sound_splitDescription hnamed text) hoverridden, ?_⟩
  rw [Fields.has, Doclet.overrideAll_agreeBut hoverridden "name" (by decide)]
  simp [splitDescription, Fields.get?_set]

/-! ## Components -/

theorem sound_fields {value : Json} (h : value.Sound) : Record.Sound value.fields := by
  cases value with
  | obj fields => exact Record.sound_obj_iff.mp h
  | _ => exact Record.sound_nil

theorem HasProps.sound {component : Record} {entries : Fields Record} (hentries : HasProps component entries)
    (h : Record.Sound component) : ∀ entry ∈ entries, Record.Sound entry.2 := by
  rcases hentries with hget | ⟨-, rfl⟩
  · have hprops := (Record.sound_obj_iff.mp (h.value_of_get? hget)).values
    exact fun entry hentry => Record.sound_obj_iff.mp (hprops (entry.1, .obj entry.2) (List.mem_map_of_mem hentry))
  · exact fun entry hentry => absurd hentry List.not_mem_nil

/-- A normal component: it is sound, and its props have names. -/
def IsNormal (component : Record) : Prop := Record.Sound component ∧ PropsNamed component

theorem IsNormal.fieldsDistinct {component : Record} (h : IsNormal component) : FieldsDistinct component := by
  refine ⟨h.1.nodup, fun prop hprop => ?_⟩
  obtain ⟨value, hvalue, rfl⟩ := List.mem_map.mp hprop
  unfold Record.list at hvalue
  cases hget : Fields.get? component "props" with
  | none => simp [hget] at hvalue
  | some props =>
    rw [hget, Option.map_some, Option.getD_some] at hvalue
    have hprops := h.1.value_of_get? hget
    cases props with
    | arr items => exact (sound_fields (Json.sound_arr_iff.mp hprops value hvalue)).nodup
    | _ => exact absurd hvalue List.not_mem_nil

theorem isNormal_normalizeComponent {raw component : Record} (h : Record.Sound raw)
    (hcomponent : (normalizeComponent raw).result = .ok component) : IsNormal component := by
  obtain ⟨text, entries, props, -, hentries, hprops, rfl⟩ := normalizeComponent_ok_iff.mp hcomponent
  have hspec : ∀ prop ∈ props, Record.Sound prop ∧ Fields.has prop "name" = true := by
    intro prop hprop
    obtain ⟨entry, hentry, hnormal⟩ := exists_of_mapM_ok (mapM_ok_iff.mpr hprops) hprop
    exact normalizeProp_spec (Record.sound_obj_iff.mpr (hentries.sound h entry hentry)) hnormal
  constructor
  · refine (sound_splitDescription h text).set (Json.sound_arr_iff.mpr fun item hitem => ?_)
    obtain ⟨prop, hprop, rfl⟩ := List.mem_map.mp hitem
    exact Record.sound_obj_iff.mpr (hspec prop hprop).1
  · intro prop hprop
    rw [propsOf, Record.list, Fields.get?_set, if_pos rfl, Option.map_some, Option.getD_some, Json.items, List.map_map] at hprop
    obtain ⟨found, hfound, rfl⟩ := List.mem_map.mp hprop
    exact (hspec found hfound).2

theorem sound_dropNameDigits {raw renamed : Record} (h : Record.Sound raw) (hrenamed : dropNameDigits raw = .ok renamed) :
    Record.Sound renamed := by
  unfold dropNameDigits at hrenamed
  split at hrenamed
  · exact Except.ok.inj hrenamed ▸ h
  · exact Except.ok.inj hrenamed ▸ h.set (Json.sound_str _)
  · cases hrenamed

theorem isNormal_of_mem_normalizeAll {raws components : List Record} (h : ∀ raw ∈ raws, Record.Sound raw)
    (hcomponents : (normalizeAll raws).result = .ok components) : ∀ component ∈ components, IsNormal component := by
  intro component hcomponent
  rw [normalizeAll, Outcome.result_mapM] at hcomponents
  obtain ⟨raw, hraw, hone⟩ := exists_of_mapM_ok hcomponents hcomponent
  obtain ⟨renamed, hrenamed, hnormal⟩ := normalizeOne_ok_iff.mp hone
  refine isNormal_normalizeComponent ?_ hnormal
  split_ifs at hrenamed
  · exact sound_dropNameDigits (h raw hraw) hrenamed
  · exact Except.ok.inj hrenamed ▸ h raw hraw

/-! ## Sources -/

theorem keeps_handlersFor {file : Record} (hfile : Record.Sound file) (path : String) {options : ExtractionOptions}
    (hkeeps : ∀ handler ∈ options.handlers, handler.Keeps) :
    ∀ handler ∈ handlersFor file path options, handler.Keeps := by
  intro handler hhandler
  rcases List.mem_append.mp hhandler with hhandler | hhandler
  · exact Handler.keeps_standard handler hhandler
  · rcases List.mem_cons.mp hhandler with rfl | hhandler
    · exact (Handler.writes_displayName path).keeps
    · obtain ⟨caller, hcaller, rfl⟩ := List.mem_map.mp hhandler
      exact hkeeps caller hcaller file hfile

/-- The components of a source are normal, if the handlers of the caller keep documentation sound. -/
theorem isNormal_extract {content : String} {tree : Node} {file : Record} {options : ExtractionOptions} {number : Nat}
    {components : List Record} (hfile : Record.Sound file) (hkeeps : ∀ handler ∈ options.handlers, handler.Keeps)
    (h : (extract content tree file options number).result = .ok components) :
    ∀ component ∈ components, IsNormal component := by
  cases hraws : (rawRecords content tree file options number).result with
  | error fault =>
    rw [extract_of_error hraws] at h
    simp [eq_nil_of_settleFault h]
  | ok raws =>
    rw [extract_of_ok hraws] at h
    refine isNormal_of_mem_normalizeAll (fun raw hraw => ?_) h
    obtain ⟨src, definition, doc, hrun, rfl⟩ := exists_run_of_mem_rawRecords hraws hraw
    exact (Handler.sound_run (keeps_handlersFor hfile _ hkeeps) hrun).toRecord

end ComponentDocs

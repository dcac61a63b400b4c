import ComponentDocs.Descriptor.PropType
import ComponentDocs.Descriptor.TypeDescriptor
import ComponentDocs.Doclet.Override
import ComponentDocs.Proofs.Json.Sound
import ComponentDocs.Proofs.Traversal

/-!
# Records of types

The records of types are sound: whatever a source says, no field is there twice.

* `TypeDescriptor.sound_toJson`, `WrittenType.sound_toJson`: annotated types, and those that doclets write;
* `ShapeField.entry_eq`: the record of a field is that of its type with what the field adds;
* `PropType.sound_describe`: types of expressions, whose fields are named once even where the source repeats a name.
-/

namespace ComponentDocs

/-! ## Annotations -/

namespace TypeDescriptor

mutual

theorem sound_record (type : TypeDescriptor) : Record.Sound type.record := by
  cases type with
  | simple name => exact Record.sound_obj_iff.mp (by simp [Json.Sound, Json.SoundFields, record, Fields.names])
  | literal value => exact Record.sound_obj_iff.mp (by simp [Json.Sound, Json.SoundFields, record, Fields.names])
  | compound name raw elements =>
    have helements := sound_records elements
    exact Record.sound_obj_iff.mp (by simp [Json.Sound, Json.SoundFields, record, Fields.names, helements])
  | signature form raw =>
    exact Record.sound_obj_iff.mp (by simp [Json.Sound, Json.SoundFields, record, Fields.names])
  | nullable type => exact (sound_record type).set (Json.sound_bool true)

theorem sound_records (types : List TypeDescriptor) : Json.SoundItems (records types) := by
  cases types with
  | nil => simp [records, Json.SoundItems]
  | cons type rest => exact ⟨Record.sound_obj_iff.mpr (sound_record type), sound_records rest⟩

end

theorem sound_toJson (type : TypeDescriptor) : type.toJson.Sound := Record.sound_obj_iff.mpr type.sound_record

end TypeDescriptor

theorem WrittenType.sound_toJson (type : WrittenType) : type.toJson.Sound := by
  cases type with
  | name text => simp [toJson, Json.Sound, Json.SoundFields, Fields.names]
  | enum members =>
    have hmembers : (Json.arr (members.map fun m => .obj [("value", .str m), ("computed", .bool false)])).Sound := by
      rw [Json.sound_arr_iff]
      simp [Json.Sound, Json.SoundFields, Fields.names]
    simpa [toJson, Json.Sound, Json.SoundFields, Fields.names] using hmembers
  | union members =>
    have hmembers : (Json.arr (members.map fun m => .obj [("name", .str m)])).Sound := by
      rw [Json.sound_arr_iff]
      simp [Json.Sound, Json.SoundFields, Fields.names]
    simpa [toJson, Json.Sound, Json.SoundFields, Fields.names] using hmembers

theorem Doclet.sound_defaultValue (value : String) (computed : Bool) : (Doclet.defaultValue value computed).Sound := by
  simp [Doclet.defaultValue, Json.Sound, Json.SoundFields, Fields.names]

/-! ## Expressions -/

theorem fieldRecords_eq (fields : List ShapeField) : fieldRecords fields = fields.map ShapeField.entry := by
  induction fields with
  | nil => rfl
  | cons field rest ih => rw [fieldRecords, ih, List.map_cons]

theorem typeRecords_eq (types : List PropType) : typeRecords types = types.map PropType.toJson := by
  induction types with
  | nil => rfl
  | cons type rest ih => rw [typeRecords, ih, List.map_cons, PropType.toJson]

/-- The names in the record of a type leave room for those of a field. -/
theorem PropType.names_record (type : PropType) :
    ∀ name ∈ Fields.names type.record, name ∈ ["name", "value", "computed", "raw"] := by
  cases type <;> simp [record, Fields.names]

namespace ShapeField

/-- The record of a field: that of its type, with whether it is required and what describes it. -/
def record : ShapeField → Record
  | mk _ type required description =>
    let required := Fields.set type.record "required" (.bool required)
    match description with
    | some text => if text = "" then required else Fields.set required "description" (.str text)
    | none => required

/-- What a field adds to the record of its type comes after it. -/
theorem entry_eq (field : ShapeField) : field.entry = (field.key, .obj field.record) := by
  cases field with
  | mk key type required description =>
    have hnames (name : String) (h : name ∉ ["name", "value", "computed", "raw"]) : name ∉ Fields.names type.record :=
      fun hname => h (type.names_record name hname)
    have hrequired : "required" ∉ Fields.names type.record := hnames _ (by decide)
    have hdescription : "description" ∉ Fields.names (type.record ++ [("required", .bool required)]) := by
      rw [Fields.names, List.map_append, List.mem_append]
      exact not_or.mpr ⟨hnames _ (by decide), by simp⟩
    cases description with
    | none =>
      rw [entry, record, Fields.set_of_notMem hrequired]
      rfl
    | some text =>
      rw [entry, record, Fields.set_of_notMem hrequired, Fields.set_of_notMem hdescription, List.append_assoc]
      split_ifs <;> rfl

theorem fst_entry (field : ShapeField) : field.entry.1 = field.key := by rw [entry_eq]

section

variable {α : Type} {f : ShapeField → String × α} (hf : ∀ field, (f field).1 = field.key)
include hf

theorem map_put (field : ShapeField) (fields : List ShapeField) :
    (field.put fields).map f = Fields.set (fields.map f) field.key (f field).2 := by
  have hfield : f field = (field.key, (f field).2) := Prod.ext (hf field) rfl
  induction fields with
  | nil => rw [put, List.map_cons, hfield]; rfl
  | cons other rest ih =>
    rw [put, List.map_cons, Fields.set, hf]
    split_ifs
    · rw [List.map_cons, hfield]
    · rw [List.map_cons, ih, ← hf other]

theorem map_dedupe (fields : List ShapeField) : (dedupe fields).map f = Fields.merge [] (fields.map f) := by
  have hfold : ∀ found : List ShapeField, (fields.foldl (fun found field => field.put found) found).map f =
      Fields.merge (found.map f) (fields.map f) := by
    induction fields with
    | nil => exact fun _ => rfl
    | cons field rest ih =>
      intro found
      rw [List.foldl_cons, ih, map_put hf, List.map_cons, Fields.merge_cons, hf]
  exact hfold []

end

end ShapeField

namespace PropType

theorem sound_entry {type : PropType} (htype : Record.Sound type.record) (key : String) (required : Bool)
    (description : Option String) : (ShapeField.entry (.mk key type required description)).2.Sound := by
  have hrequired : Record.Sound (Fields.set type.record "required" (.bool required)) := htype.set (Json.sound_bool required)
  rw [ShapeField.entry_eq, Record.sound_obj_iff]
  cases description with
  | none => exact hrequired
  | some text =>
    rw [ShapeField.record]
    split_ifs
    · exact hrequired
    · exact hrequired.set (Json.sound_str _)

theorem sound_describeCall {src : SourceFile} {element : Cursor → Except Fault PropType} {name : String}
    {argument : Cursor} {type : PropType} (helement : ∀ c inner, element c = .ok inner → Record.Sound inner.record)
    (h : describeCall src element name argument = .ok type) : Record.Sound type.record := by
  have hcomputed : ∀ name text, Record.Sound (PropType.computed name text).record := fun name text =>
    Record.sound_obj_iff.mp (by simp [Json.Sound, Json.SoundFields, record, Fields.names])
  have hwith : ∀ name (value : Json), value.Sound → Record.Sound [("name", .str name), ("value", value)] :=
    fun name value hvalue => Record.sound_obj_iff.mp (by simp [Json.Sound, Json.SoundFields, Fields.names, hvalue])
  unfold describeCall at h
  split_ifs at h with hone harray htype harray hof hinstance hobject
  · cases h
    refine hwith _ _ ?_
    rw [Json.sound_arr_iff]
    simp [EnumMember.toJson, Json.Sound, Json.SoundFields, Fields.names]
  · cases h
    exact hcomputed _ _
  · obtain ⟨members, hmembers, h⟩ := bind_eq_ok_iff.mp h
    cases h
    refine hwith _ _ ?_
    rw [typeRecords_eq, Json.sound_arr_iff]
    intro item hitem
    obtain ⟨member, hmember, rfl⟩ := List.mem_map.mp hitem
    obtain ⟨c, -, hc⟩ := exists_of_mapM_ok hmembers hmember
    exact Record.sound_obj_iff.mpr (helement c member hc)
  · cases h
    exact hcomputed _ _
  · obtain ⟨inner, hinner, h⟩ := bind_eq_ok_iff.mp h
    cases h
    exact hwith _ _ (Record.sound_obj_iff.mpr (helement argument inner hinner))
  · cases h
    exact hwith _ _ (Json.sound_str _)
  · obtain ⟨fields, hfields, h⟩ := bind_eq_ok_iff.mp h
    cases h
    refine hwith _ _ ?_
    rw [fieldRecords_eq, ShapeField.map_dedupe ShapeField.fst_entry, Record.sound_obj_iff]
    refine Record.sound_nil.merge fun entry hentry => ?_
    obtain ⟨field, hfield, rfl⟩ := List.mem_map.mp hentry
    obtain ⟨pair, -, hpair⟩ := exists_of_mapM_ok hfields hfield
    obtain ⟨inner, hinner, hpair⟩ := bind_eq_ok_iff.mp hpair
    cases hpair
    exact sound_entry (helement _ inner hinner) _ _ _
  · cases h
    exact hcomputed _ _

theorem sound_describeWithin {src : SourceFile} {depth : Nat} {c : Cursor} {type : PropType}
    (h : describeWithin src depth c = .ok type) : Record.Sound type.record := by
  induction depth generalizing c type with
  | zero => simp [describeWithin] at h
  | succ depth ih =>
    rw [describeWithin] at h
    split at h
    · cases h
      exact Record.sound_obj_iff.mp (by simp [Json.Sound, Json.SoundFields, record, Fields.names])
    · split at h
      · exact sound_describeCall (fun c inner hinner => ih hinner) h
      · cases h
        exact Record.sound_obj_iff.mp (by simp [Json.Sound, Json.SoundFields, record, Fields.names])

theorem sound_describe {src : SourceFile} {c : Cursor} {type : PropType} (h : describe src c = .ok type) :
    type.toJson.Sound :=
  Record.sound_obj_iff.mpr (sound_describeWithin h)

end PropType

end ComponentDocs

import ComponentDocs.Proofs.Doclet.Override
import ComponentDocs.Proofs.Documentation.Sound

/-!
# What the standard handlers write

The handlers that always run fill documentation in by few kinds of steps. What every such step keeps,
the handlers keep.

* `Record.Writes`, `Documentation.Writes`: a prop or documentation after some steps;
* `Handler.writes_standard`, `Handler.writes_displayName`: the handlers take no other steps;
* `Handler.keeps_standard`: they keep documentation sound.
-/

namespace ComponentDocs

/-! ## Steps -/

/-- The keys under which texts stand. -/
def textKeys : List String := ["description", "displayName"]

/-- A value that is written under a key: a sound one, a text as description or name, and an object as annotated type. -/
structure IsWritten (key : String) (value : Json) : Prop where
  sound : value.Sound
  text : key ∈ textKeys → ∃ text, value = .str text
  record : key ∈ Doclet.annotationKeys → ∃ fields, value = .obj fields

theorem isWritten_of_notMem {key : String} (hkey : key ∉ textKeys ++ Doclet.annotationKeys) {value : Json} (h : value.Sound) :
    IsWritten key value :=
  ⟨h, fun htext => absurd (List.mem_append_left _ htext) hkey,
    fun hrecord => absurd (List.mem_append_right _ hrecord) hkey⟩

theorem isWritten_str {key : String} (hkey : key ∉ Doclet.annotationKeys) (text : String) : IsWritten key (.str text) :=
  ⟨Json.sound_str text, fun _ => ⟨text, rfl⟩, fun hrecord => absurd hrecord hkey⟩

theorem isWritten_obj {key : String} (hkey : key ∉ textKeys) {fields : Record} (h : (Json.obj fields).Sound) :
    IsWritten key (.obj fields) := ⟨h, fun htext => absurd htext hkey, fun _ => ⟨fields, rfl⟩⟩

/-- A prop after values were written into it. -/
inductive Record.Writes (before : Record) : Record → Prop
  | refl : Record.Writes before before
  | set {after : Record} {key : String} {value : Json} (h : Record.Writes before after)
      (hvalue : IsWritten key value) : Record.Writes before (Fields.set after key value)

/-- Documentation after some steps: fields of the component, its methods, its props, and the modules whose
props it takes over. No step writes the props as a field. -/
inductive Documentation.Writes (before : Documentation) : Documentation → Prop
  | refl : Documentation.Writes before before
  | set {after : Documentation} {key : String} {value : Json} (h : Documentation.Writes before after)
      (hkey : key ≠ "props") (hvalue : IsWritten key value) : Documentation.Writes before (after.set key value)
  | setMethods {after : Documentation} {methods : List Method} (h : Documentation.Writes before after)
      (hmethods : ∀ method ∈ methods, method.Sound) : Documentation.Writes before (after.setMethods methods)
  | changeMethods {after : Documentation} {f : Method → Method} (h : Documentation.Writes before after)
      (hf : ∀ method : Method, method.Sound → (f method).Sound) :
      Documentation.Writes before (after.changeMethods f)
  | changeProp {after : Documentation} {name : String} {f : Record → Record} (h : Documentation.Writes before after)
      (hf : ∀ prop, Record.Writes prop (f prop)) : Documentation.Writes before (after.changeProp name f)
  | addComposed {after : Documentation} {module : String} (h : Documentation.Writes before after) :
      Documentation.Writes before (after.addComposed module)

theorem Record.Writes.setNew {before after : Record} {key : String} {value : Json} (h : Record.Writes before after)
    (hvalue : IsWritten key value) : Record.Writes before (Fields.setNew after key value) := by
  unfold Fields.setNew
  split_ifs with hhas
  · exact h
  · rw [← Fields.set_of_notMem (fun hmem => hhas (Fields.has_iff.mpr hmem))]
    exact h.set hvalue

namespace Documentation

variable {α : Type} {before middle after : Documentation}

theorem Writes.trans (h : before.Writes middle) (h' : middle.Writes after) : before.Writes after := by
  induction h' with
  | refl => exact h
  | set _ hkey hvalue ih => exact ih.set hkey hvalue
  | setMethods _ hmethods ih => exact ih.setMethods hmethods
  | changeMethods _ hf ih => exact ih.changeMethods hf
  | changeProp _ hf ih => exact ih.changeProp hf
  | addComposed _ ih => exact ih.addComposed

theorem writes_foldl {f : Documentation → α → Documentation} (hf : ∀ (doc : Documentation) item, doc.Writes (f doc item))
    (items : List α) (doc : Documentation) : doc.Writes (items.foldl f doc) :=
  List.foldlRecOn items f .refl fun now hnow item _ => hnow.trans (hf now item)

theorem writes_foldlM {f : Documentation → α → Except Fault Documentation}
    (hf : ∀ (doc : Documentation) item after, f doc item = .ok after → doc.Writes after) {items : List α}
    {doc after : Documentation} (h : items.foldlM f doc = .ok after) : doc.Writes after :=
  foldlM_induction (P := doc.Writes) (fun now item _ next hnow hnext => hnow.trans (hf now item next hnext)) .refl h

end Documentation

/-! ## What steps keep -/

theorem Record.Sound.writes {before after : Record} (h : Record.Sound before) (hwrites : Record.Writes before after) :
    Record.Sound after := by
  induction hwrites with
  | refl => exact h
  | set _ hvalue ih => exact ih.set hvalue.sound

theorem Documentation.Sound.writes {before after : Documentation} (h : before.Sound) (hwrites : before.Writes after) :
    after.Sound := by
  induction hwrites with
  | refl => exact h
  | set _ _ hvalue ih => exact ih.set _ hvalue.sound
  | setMethods _ hmethods ih => exact ih.setMethods hmethods
  | changeMethods _ hf ih => exact ih.changeMethods hf
  | changeProp _ hf ih => exact ih.changeProp _ fun prop hprop => hprop.writes (hf prop)
  | addComposed _ ih => exact ih.addComposed _

/-! ## The handlers -/

namespace Handler

/-- The handler only takes the steps of `Documentation.Writes`. -/
def Writes (handler : Handler) : Prop :=
  ∀ src definition doc after, handler src definition doc = .ok after → doc.Writes after

theorem Writes.keeps {handler : Handler} (h : handler.Writes) : handler.Keeps :=
  fun src definition doc after hdoc hafter => hdoc.writes (h src definition doc after hafter)

theorem writes_always {f : SourceFile → Definition → Documentation → Documentation}
    (h : ∀ src definition (doc : Documentation), doc.Writes (f src definition doc)) : (always f).Writes := by
  intro src definition doc after hafter
  cases hafter
  exact h src definition doc

theorem writes_propTypes : propTypes.Writes := by
  intro src definition doc after hafter
  refine Documentation.writes_foldlM (fun doc member next hnext => ?_) hafter
  unfold propType at hnext
  split at hnext
  · split at hnext
    · obtain ⟨type, htype, hnext⟩ := bind_eq_ok_iff.mp hnext
      cases hnext
      refine .changeProp .refl fun prop => ?_
      have htyped : IsWritten "type" type.toJson := isWritten_of_notMem (by decide) (PropType.sound_describe htype)
      exact (Record.Writes.refl.set htyped).set (isWritten_of_notMem (by decide) (Json.sound_bool _))
    · cases hnext
      exact .refl
  · cases hnext
    exact .refl

theorem writes_composition : composition.Writes :=
  writes_always fun _ _ doc => Documentation.writes_foldl (fun _ _ => .addComposed .refl) _ doc

theorem writes_propDocblocks : propDocblocks.Writes := by
  refine writes_always fun src _ doc => Documentation.writes_foldl (fun doc member => ?_) _ doc
  split
  · split
    · exact .changeProp .refl fun prop => .set .refl (isWritten_str (by decide) _)
    · exact .refl
  · exact .refl

theorem writes_annotateProp (src : SourceFile) (flavor : Flavor) (doc : Documentation) (signature : PropSignature) :
    doc.Writes (annotateProp src flavor doc signature) := by
  refine .changeProp .refl fun prop => ?_
  have htype : IsWritten (typeKey flavor) (src.describeType (signature.type.map (·.node))).toJson :=
    isWritten_obj (by cases flavor <;> decide) (TypeDescriptor.sound_toJson _)
  have htyped : Record.Writes prop (Fields.setNew (Fields.set prop (typeKey flavor)
      (src.describeType (signature.type.map (·.node))).toJson) "required" (.bool signature.required)) :=
    (Record.Writes.refl.set htype).setNew (isWritten_of_notMem (by decide) (Json.sound_bool _))
  dsimp only
  split_ifs
  · exact htyped.set (isWritten_str (by decide) _)
  · exact htyped.setNew (isWritten_str (by decide) _)

theorem writes_annotatedProps : annotatedProps.Writes := by
  refine writes_always fun src definition doc => ?_
  split
  · exact Documentation.writes_foldl (writes_annotateProp src _) _ doc
  · exact .refl

theorem writes_defaultProps : defaultProps.Writes :=
  writes_always fun _ _ doc => Documentation.writes_foldl (fun _ _ =>
    .changeProp .refl fun _ => .set .refl (isWritten_of_notMem (by decide) (Doclet.sound_defaultValue _ _))) _ doc

theorem writes_docblock : docblock.Writes :=
  writes_always fun _ _ _ => .set .refl (by decide) (isWritten_str (by decide) _)

theorem writes_displayName (path : String) : (displayName path).Writes :=
  writes_always fun _ _ _ => .set .refl (by decide) (isWritten_str (by decide) _)

theorem writes_methodDocs : methodDocs.Writes :=
  writes_always fun _ _ _ => .changeMethods .refl fun _ hmethod => hmethod.document

theorem sound_classMethod? {src : SourceFile} {c : Cursor} {method : Method} (h : classMethod? src c = some method) :
    method.Sound := by
  unfold classMethod? at h
  split_ifs at h
  · obtain ⟨name, -, rfl⟩ := Option.map_eq_some_iff.mp h
    exact Method.sound_ofFunction ..
  · simp only [Option.bind_eq_bind, Option.bind_eq_some_iff, Option.pure_def, Option.some.injEq] at h
    obtain ⟨value, -, name, -, rfl⟩ := h
    exact Method.sound_ofFunction ..

theorem sound_specMemberMethod? {src : SourceFile} {c : Cursor} {method : Method}
    (h : specMemberMethod? src c = some method) : method.Sound := by
  unfold specMemberMethod? at h
  split_ifs at h
  · obtain ⟨name, -, rfl⟩ := Option.map_eq_some_iff.mp h
    exact Method.sound_ofFunction ..
  · simp only [Option.bind_eq_bind, Option.bind_eq_some_iff, Option.pure_def, Option.some.injEq] at h
    obtain ⟨value, -, name, -, rfl⟩ := h
    exact Method.sound_ofFunction ..

theorem sound_assignedMethod? {src : SourceFile} {entry : String × Option Cursor} {method : Method}
    (h : assignedMethod? src entry = some method) : method.Sound := by
  unfold assignedMethod? at h
  simp only [Option.bind_eq_bind, Option.bind_eq_some_iff] at h
  obtain ⟨value, -, h⟩ := h
  split_ifs at h
  cases h
  exact Method.sound_ofFunction ..

theorem writes_methods : methods.Writes := by
  refine writes_always fun src definition doc => .setMethods .refl fun method hmethod => ?_
  rcases List.mem_append.mp hmethod with hmethod | hmethod
  · rcases List.mem_append.mp hmethod with hmethod | hmethod
    · obtain ⟨c, -, hc⟩ := List.mem_filterMap.mp hmethod
      exact sound_classMethod? hc
    · obtain ⟨c, -, hc⟩ := List.mem_filterMap.mp hmethod
      exact sound_specMemberMethod? hc
  · unfold assignedMethods at hmethod
    split at hmethod
    · split_ifs at hmethod
      · exact absurd hmethod List.not_mem_nil
      · obtain ⟨entry, -, hentry⟩ := List.mem_filterMap.mp hmethod
        exact sound_assignedMethod? hentry
    · exact absurd hmethod List.not_mem_nil

/-- **The standard handlers only take these steps.** -/
theorem writes_standard : ∀ handler ∈ standard, handler.Writes := by
  intro handler hhandler
  simp only [standard, List.mem_cons, List.not_mem_nil, or_false] at hhandler
  rcases hhandler with rfl | rfl | rfl | rfl | rfl | rfl | rfl | rfl
  · exact writes_propTypes
  · exact writes_composition
  · exact writes_propDocblocks
  · exact writes_annotatedProps
  · exact writes_defaultProps
  · exact writes_docblock
  · exact writes_methods
  · exact writes_methodDocs

theorem keeps_standard : ∀ handler ∈ standard, handler.Keeps :=
  fun handler hhandler => (writes_standard handler hhandler).keeps

end Handler

end ComponentDocs

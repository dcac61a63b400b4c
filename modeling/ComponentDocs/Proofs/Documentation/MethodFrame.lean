import ComponentDocs.Documentation.Handler
import ComponentDocs.Proofs.Fields
import Mathlib.Data.List.Forall2

/-!
# What docblocks leave alone

Docblocks add to what the signatures of methods say, and overrule nothing of it. What one doclet keeps of a method, any
list of doclets keeps.

* `Param.Keeps`, `Method.Keeps`: what is kept of a parameter and of a method;
* `Method.changeLast_of_notMem`: parameters of other names stay as they are;
* `Method.Keeps.applyDoclet`, `Method.keeps_foldl_applyDoclet`: one doclet, and a list of them;
* `Method.IsStray`, `Method.foldl_applyDoclet_filter`: a `@param` that names no parameter does not count;
* **`Handler.methodDocs_keeps`**: what the handler keeps of the methods.
-/

namespace ComponentDocs

/-! ## Parameters -/

/-- What is kept of a parameter: its name, a type that it has, and that it may be left out. -/
structure Param.Keeps (before after : Param) : Prop where
  name_eq : after.name = before.name
  type_eq : ∀ type, before.type = some type → after.type = some type
  optional : ParamNote.isOptional ∈ before.notes → ParamNote.isOptional ∈ after.notes

namespace Param

variable {before middle after : Param}

theorem Keeps.refl (param : Param) : param.Keeps param := ⟨rfl, fun _ => id, id⟩

theorem Keeps.trans (h : before.Keeps middle) (h' : middle.Keeps after) : before.Keeps after :=
  ⟨h'.name_eq.trans h.name_eq, fun type htype => h'.type_eq type (h.type_eq type htype), h'.optional ∘ h.optional⟩

theorem isOptional_mem_putDescription {text : String} {notes : List ParamNote} (h : ParamNote.isOptional ∈ notes) :
    ParamNote.isOptional ∈ putDescription text notes := by
  induction notes with
  | nil => exact absurd h List.not_mem_nil
  | cons note rest ih =>
    cases note with
    | isOptional => exact List.mem_cons_self
    | description old => exact List.mem_cons_of_mem _ ((List.mem_cons.mp h).resolve_left (by simp))

theorem keeps_describe (param : Param) (text : String) : param.Keeps (param.describe text) :=
  ⟨rfl, fun _ => id, isOptional_mem_putDescription⟩

theorem keeps_markOptional (param : Param) : param.Keeps param.markOptional := by
  rw [markOptional]
  split_ifs
  · exact .refl param
  · exact ⟨rfl, fun _ => id, List.mem_append_left _⟩

end Param

/-! ## Methods -/

/-- What is kept of a method: its name, docblock and modifiers, its parameters in order, and the type that it returns. -/
structure Method.Keeps (before after : Method) : Prop where
  name_eq : after.name = before.name
  docblock_eq : after.docblock = before.docblock
  modifiers_eq : after.modifiers = before.modifiers
  params : List.Forall₂ Param.Keeps before.params after.params
  returnType_eq : ∀ type, Returns.type? before.returns = some type → Returns.type? after.returns = some type

namespace Method

variable {method before middle after : Method} {doclet : Doclet}

theorem Keeps.refl (method : Method) : method.Keeps method :=
  ⟨rfl, rfl, rfl, List.forall₂_same.mpr fun param _ => .refl param, fun _ => id⟩

theorem forall₂_keeps_trans {first second third : List Param} (h : List.Forall₂ Param.Keeps first second)
    (h' : List.Forall₂ Param.Keeps second third) : List.Forall₂ Param.Keeps first third := by
  induction h generalizing third with
  | nil => exact h'
  | cons hparam _ ih =>
    cases h' with
    | cons hparam' h' => exact .cons (hparam.trans hparam') (ih h')

theorem Keeps.trans (h : before.Keeps middle) (h' : middle.Keeps after) : before.Keeps after where
  name_eq := h'.name_eq.trans h.name_eq
  docblock_eq := h'.docblock_eq.trans h.docblock_eq
  modifiers_eq := h'.modifiers_eq.trans h.modifiers_eq
  params := forall₂_keeps_trans h.params h'.params
  returnType_eq type htype := h'.returnType_eq type (h.returnType_eq type htype)

theorem map_name_eq {params others : List Param} (h : List.Forall₂ Param.Keeps params others) :
    others.map (·.name) = params.map (·.name) := by
  induction h with
  | nil => rfl
  | cons hparam _ ih => rw [List.map_cons, List.map_cons, ih, hparam.name_eq]

/-! ## One doclet -/

theorem keeps_applyParamText (text : ParamText) (optional : Bool) (param : Param) :
    param.Keeps (applyParamText text optional param) := by
  have htyped : param.Keeps { param with type := param.type.or (writtenType? text.type) } :=
    ⟨rfl, fun type htype => by rw [htype]; rfl, id⟩
  have hdescribed : ∀ typed : Param, typed.Keeps (if text.description.isEmpty then typed
      else typed.describe (trimmed text.description)) := by
    intro typed
    split_ifs
    · exact .refl typed
    · exact typed.keeps_describe _
  cases optional with
  | false => exact htyped.trans (hdescribed _)
  | true => exact (htyped.trans (hdescribed _)).trans (Param.keeps_markOptional _)

theorem forall₂_changeLast {f : Param → Param} (hf : ∀ param : Param, param.Keeps (f param)) (name : String)
    (params : List Param) : List.Forall₂ Param.Keeps params (changeLast name f params) := by
  induction params with
  | nil => exact .nil
  | cons param rest ih =>
    rw [changeLast]
    split_ifs
    · exact .cons (hf param) (List.forall₂_same.mpr fun other _ => .refl other)
    · exact .cons (.refl param) ih

theorem changeLast_of_notMem {name : String} {params : List Param} (h : name ∉ params.map (·.name))
    (f : Param → Param) : changeLast name f params = params := by
  induction params with
  | nil => rfl
  | cons param rest ih =>
    rw [List.map_cons, List.mem_cons, not_or] at h
    rw [changeLast, if_neg fun hname => h.1 hname.1.symm, ih h.2]

theorem type?_describe (text : String) (returns : Returns) :
    Returns.type? (Returns.describe text returns) = Returns.type? returns := by
  cases returns with
  | nil => rfl
  | cons note rest => cases note <;> rfl

theorem type?_withType (returns : Returns) (type : TypeDescriptor) :
    Returns.type? (Returns.withType returns type) = (Returns.type? returns).or (some type) := by
  rw [Returns.withType]
  cases htype : Returns.type? returns with
  | none => rw [if_neg (by simp), Returns.type?, List.findSome?_append, ← Returns.type?, htype]; rfl
  | some old => rw [if_pos Option.isSome_some, htype]; rfl

theorem Keeps.applyParam (method : Method) (value : String) : method.Keeps (method.applyParam value) := by
  rw [Method.applyParam]
  cases (ParamText.parse value).name with
  | none => exact .refl method
  | some written => exact ⟨rfl, rfl, rfl, forall₂_changeLast (keeps_applyParamText _ _) _ _, fun _ => id⟩

theorem type?_applyReturns (method : Method) (value : String) : Returns.type? (method.applyReturns value).returns =
    (Returns.type? method.returns).or (writtenType? (ReturnsText.parse value).type) := by
  have hdescribed : ∀ typed : Returns, Returns.type? (if (ReturnsText.parse value).description.isEmpty then typed
      else Returns.describe (trimmed (ReturnsText.parse value).description) typed) = Returns.type? typed := by
    intro typed
    split_ifs
    · rfl
    · exact type?_describe _ typed
  rw [applyReturns]
  dsimp only
  rw [hdescribed]
  cases writtenType? (ReturnsText.parse value).type with
  | none => exact Option.or_none.symm
  | some written => exact type?_withType _ written

theorem Keeps.applyReturns (method : Method) (value : String) : method.Keeps (method.applyReturns value) := by
  refine ⟨rfl, rfl, rfl, List.forall₂_same.mpr fun param _ => .refl param, fun type htype => ?_⟩
  rw [type?_applyReturns, htype]
  rfl

/-- **A doclet keeps what the signature of a method says.** -/
theorem Keeps.applyDoclet (method : Method) (doclet : Doclet) : method.Keeps (method.applyDoclet doclet) := by
  rw [Method.applyDoclet]
  split_ifs
  · exact .applyParam method _
  · exact .applyReturns method _
  · exact .refl method

theorem keeps_foldl_applyDoclet (doclets : List Doclet) (method : Method) :
    method.Keeps (doclets.foldl Method.applyDoclet method) := by
  induction doclets generalizing method with
  | nil => exact .refl method
  | cons doclet doclets ih => exact (Keeps.applyDoclet method doclet).trans (ih _)

/-! ## Doclets of no parameter -/

/-- A `@param` that names no parameter of a method. -/
def IsStray (method : Method) (doclet : Doclet) : Prop :=
  doclet.tag = "param" ∧ ∀ written ∈ (ParamText.parse doclet.value).name,
    ParamText.target written ∉ method.params.map (·.name)

instance decidableIsStray (method : Method) (doclet : Doclet) : Decidable (method.IsStray doclet) :=
  inferInstanceAs (Decidable (_ ∧ _))

theorem IsStray.applyDoclet_eq (h : method.IsStray doclet) : method.applyDoclet doclet = method := by
  obtain ⟨htag, hname⟩ := h
  rw [applyDoclet, if_pos htag, applyParam]
  cases hwritten : (ParamText.parse doclet.value).name with
  | none => rfl
  | some written =>
    dsimp only
    rw [changeLast_of_notMem (hname written hwritten)]

theorem Keeps.isStray_iff (h : before.Keeps after) : after.IsStray doclet ↔ before.IsStray doclet := by
  rw [IsStray, IsStray, map_name_eq h.params]

/-- Doclets say the same without the stray ones among them. -/
theorem foldl_applyDoclet_filter (doclets : List Doclet) (method : Method) :
    (doclets.filter fun doclet => ¬ method.IsStray doclet).foldl applyDoclet method = doclets.foldl applyDoclet method := by
  induction doclets generalizing method with
  | nil => rfl
  | cons doclet doclets ih =>
    -- a doclet keeps the names of the parameters, so the same doclets are stray before and after it
    have hstray : (fun other => decide ¬ (method.applyDoclet doclet).IsStray other) =
        fun other => decide ¬ method.IsStray other :=
      funext fun other => decide_eq_decide.mpr (not_congr (Keeps.applyDoclet method doclet).isStray_iff)
    rw [List.foldl_cons, ← ih (method.applyDoclet doclet), hstray]
    by_cases h : method.IsStray doclet
    · rw [List.filter_cons_of_neg (by simpa using h), h.applyDoclet_eq]
    · rw [List.filter_cons_of_pos (by simpa using h), List.foldl_cons]

/-! ## Whole docblocks -/

theorem keeps_document (method : Method) : method.Keeps method.document := by
  rw [document]
  cases method.docblock.bind nonEmpty? with
  | none => exact .refl method
  | some docblock =>
    have hdescribed : method.Keeps { method with description := nonEmpty? (Doclet.clean docblock) } :=
      ⟨rfl, rfl, rfl, List.forall₂_same.mpr fun param _ => .refl param, fun _ => id⟩
    exact hdescribed.trans (keeps_foldl_applyDoclet _ _)

/-- A method without a docblock, or with an empty one. -/
def IsUndocumented (method : Method) : Prop := method.docblock = none ∨ method.docblock = some ""

theorem IsUndocumented.document_eq (h : method.IsUndocumented) : method.document = method := by
  rw [document]
  rcases h with h | h <;> rw [h] <;> rfl

theorem document_eq {docblock : String} (h : method.docblock = some docblock) (hdocblock : docblock ≠ "") :
    method.document =
      (Doclet.parse docblock).foldl applyDoclet { method with description := nonEmpty? (Doclet.clean docblock) } := by
  have hsome : method.docblock.bind nonEmpty? = some docblock := by
    rw [h, Option.bind_some, nonEmpty?, if_neg hdocblock]
  rw [document, hsome]

/-- Of the doclets of a docblock only those that are not stray count. -/
theorem document_eq_filter {docblock : String} (h : method.docblock = some docblock) (hdocblock : docblock ≠ "") :
    method.document = ((Doclet.parse docblock).filter fun doclet => ¬ method.IsStray doclet).foldl applyDoclet
      { method with description := nonEmpty? (Doclet.clean docblock) } := by
  have hfilter := foldl_applyDoclet_filter (Doclet.parse docblock)
    { method with description := nonEmpty? (Doclet.clean docblock) }
  exact (document_eq h hdocblock).trans hfilter.symm

end Method

/-! ## The handler -/

namespace Documentation

theorem methods_changeMethods (doc : Documentation) (f : Method → Method) :
    (doc.changeMethods f).methods = doc.methods.map f := by
  rw [changeMethods]
  split
  · next found hfound =>
    have hmethods : doc.methods = found := by rw [methods, hfound]
    rw [hmethods, methods, setMethods, Fields.get?_set, if_pos rfl]
  · next hother =>
    have hmethods : doc.methods = [] := by
      rw [methods]
      split
      · next found hfound => exact absurd hfound (hother found)
      · rfl
    rw [hmethods]
    rfl

theorem props_changeMethods (doc : Documentation) (f : Method → Method) : (doc.changeMethods f).props = doc.props := by
  rw [changeMethods]
  split <;> rfl

theorem composes_changeMethods (doc : Documentation) (f : Method → Method) :
    (doc.changeMethods f).composes = doc.composes := by
  rw [changeMethods]
  split <;> rfl

theorem get?_changeMethods (doc : Documentation) (f : Method → Method) {key : String} (hkey : key ≠ "methods") :
    Fields.get? (doc.changeMethods f).fields key = Fields.get? doc.fields key := by
  rw [changeMethods]
  split
  · rw [setMethods, Fields.get?_set, if_neg hkey]
  · rfl

end Documentation

namespace Handler

/-- **The handler keeps the methods in order, each with its name, docblock and modifiers, its parameters in order, the
types of its signature, and which parameters may be left out.** A method without a docblock stays as it is, and a `@param`
that names no parameter counts as little as if it were not there. -/
theorem methodDocs_keeps (src : SourceFile) (definition : Definition) (doc : Documentation) :
    ∃ after, methodDocs src definition doc = .ok after ∧
      (after.props = doc.props ∧ after.composes = doc.composes ∧
        ∀ key, key ≠ "methods" → Fields.get? after.fields key = Fields.get? doc.fields key) ∧
      List.Forall₂ (fun before now => before.Keeps now ∧ (before.IsUndocumented → now = before) ∧
        ∀ docblock, before.docblock = some docblock → docblock ≠ "" →
          now = ((Doclet.parse docblock).filter fun doclet => ¬ before.IsStray doclet).foldl Method.applyDoclet
            { before with description := Method.nonEmpty? (Doclet.clean docblock) }) doc.methods after.methods := by
  refine ⟨doc.changeMethods Method.document, rfl, ⟨doc.props_changeMethods _, doc.composes_changeMethods _, fun key =>
    doc.get?_changeMethods Method.document⟩, ?_⟩
  rw [Documentation.methods_changeMethods, List.forall₂_map_right_iff, List.forall₂_same]
  exact fun method _ => ⟨method.keeps_document, Method.IsUndocumented.document_eq, fun docblock h hdocblock =>
    Method.document_eq_filter h hdocblock⟩

end Handler

end ComponentDocs

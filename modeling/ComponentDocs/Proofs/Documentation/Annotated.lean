import ComponentDocs.Proofs.Documentation.PropPairs

/-!
# Annotated props

What a handler makes of the property signatures of the type of the props, which may say something of one name several
times. The type is written each time, the other fields only once.

* `Documentation.prop_changeProps`: the changes of one prop are made one after another;
* `Handler.signatureChange`: what a property signature makes of its prop, `Handler.signatureChanges`: several of them;
* `Handler.DescribedBy`: type and `required` of a prop are those of one property signature;
* **`Handler.annotatedProps_of_signatures`**: the last of a name gives the type, the first says whether it is required.
-/

namespace ComponentDocs

open Fields

theorem Record.filled?_set_str {text : String} (h : text ≠ "") (record : Record) (key : String) :
    Record.filled? (set record key (.str text)) key = some (.str text) := by
  rw [Record.filled?, get?_set, if_pos rfl, Option.filter_some, if_pos]
  simpa [Json.isEmptyValue] using h

theorem Record.filled?_setNew_empty (record : Record) (key : String) :
    Record.filled? (setNew record key (.str "")) key = Record.filled? record key := by
  rw [Record.filled?, Record.filled?, get?_setNew, if_pos rfl]
  cases get? record key <;> rfl

/-! ## Changes of one prop -/

namespace Documentation

variable {name : String} {changes : Fields (Record → Record)}

/-- The changes of one prop are made one after another. -/
theorem prop_changeProps (doc : Documentation) (changes : Fields (Record → Record)) (name : String) :
    (doc.changeProps changes).prop name =
      (changes.filter (·.1 == name)).foldl (fun prop change => change.2 prop) (doc.prop name) := by
  induction changes using List.reverseRecOn with
  | nil => rfl
  | append_singleton changes change ih =>
    rw [changeProps_concat, List.filter_append, List.foldl_append, ← ih, prop, changeProp, get?_modify]
    by_cases hname : name = change.1
    · subst hname
      rw [if_pos rfl, List.filter_singleton, beq_self_eq_true]
      rfl
    · rw [if_neg hname, List.filter_singleton, beq_eq_false_iff_ne.mpr (Ne.symm hname)]
      rfl

theorem get?_changeProps_of_notMem (doc : Documentation) (h : name ∉ names changes) :
    get? (doc.changeProps changes).props name = get? doc.props name := by
  induction changes using List.reverseRecOn with
  | nil => rfl
  | append_singleton changes change ih =>
    have hnames : names (changes ++ [change]) = names changes ++ [change.1] := List.map_append
    rw [hnames, List.mem_append, List.mem_singleton, not_or] at h
    rw [changeProps_concat, changeProp, get?_modify, if_neg h.2, ih h.1]

end Documentation

namespace Handler

variable (src : SourceFile) (flavor : Flavor)

/-! ## One property signature -/

/-- The type that a property signature gives, as it is written. -/
def signatureType (signature : PropSignature) : Json := (src.describeType (signature.type.map (·.node))).toJson

/-- What a property signature makes of its prop. -/
def signatureChange (signature : PropSignature) (prop : Record) : Record :=
  let typed := setNew (set prop (typeKey flavor) (signatureType src signature)) "required" (.bool signature.required)
  let text := signature.docblock.getD ""
  if text ≠ "" ∧ (Record.filled? typed "description").isNone then set typed "description" (.str text)
  else setNew typed "description" (.str "")

/-- Type and `required` of a prop are those of one property signature. -/
structure DescribedBy (signature : PropSignature) (prop : Record) : Prop where
  type_eq : get? prop (typeKey flavor) = some (signatureType src signature)
  required_eq : get? prop "required" = some (.bool signature.required)

/-- The documentation comment of a property signature, if there is any text in it. -/
def signatureText? (signature : PropSignature) : Option Json :=
  (signature.docblock.filter (· ≠ "")).map .str

theorem typeKey_ne : typeKey flavor ≠ "required" ∧ typeKey flavor ≠ "description" := by
  cases flavor <;> decide

theorem get?_signatureChange {key : String} (hkey : key ≠ "description") (signature : PropSignature) (prop : Record) :
    get? (signatureChange src flavor signature prop) key =
      get? (setNew (set prop (typeKey flavor) (signatureType src signature)) "required" (.bool signature.required)) key := by
  rw [signatureChange]
  split_ifs
  · rw [get?_set, if_neg hkey]
  · rw [get?_setNew, if_neg hkey]

theorem get?_signatureChange_type (signature : PropSignature) (prop : Record) :
    get? (signatureChange src flavor signature prop) (typeKey flavor) = some (signatureType src signature) := by
  obtain ⟨hrequired, hdescription⟩ := typeKey_ne flavor
  rw [get?_signatureChange src flavor hdescription, get?_setNew, if_neg hrequired, get?_set, if_pos rfl]

theorem get?_signatureChange_required (signature : PropSignature) (prop : Record) :
    get? (signatureChange src flavor signature prop) "required" =
      (get? prop "required").or (some (.bool signature.required)) := by
  rw [get?_signatureChange src flavor (by decide), get?_setNew, if_pos rfl, get?_set, if_neg (typeKey_ne flavor).1.symm]

theorem filled?_signatureChange (signature : PropSignature) (prop : Record) :
    Record.filled? (signatureChange src flavor signature prop) "description" =
      (Record.filled? prop "description").or (signatureText? signature) := by
  have htyped : Record.filled? (setNew (set prop (typeKey flavor) (signatureType src signature)) "required"
      (.bool signature.required)) "description" = Record.filled? prop "description" := by
    rw [Record.filled?, get?_setNew, if_neg (by decide), get?_set, if_neg (typeKey_ne flavor).2.symm]
    rfl
  have htext : signatureText? signature =
      if signature.docblock.getD "" = "" then none else some (.str (signature.docblock.getD "")) := by
    cases hdocblock : signature.docblock with
    | none => simp [signatureText?, hdocblock]
    | some text => by_cases hempty : text = "" <;> simp [signatureText?, hdocblock, hempty]
  -- where there is a description or no text, only an empty description is written, which does not count
  rw [signatureChange, htyped, htext]
  cases hold : Record.filled? prop "description" with
  | some old =>
    rw [if_neg fun h => absurd h.2 Bool.false_ne_true, Record.filled?_setNew_empty, htyped, hold]
    rfl
  | none =>
    by_cases hempty : signature.docblock.getD "" = ""
    · rw [if_pos hempty, if_neg fun h => h.1 hempty, Record.filled?_setNew_empty, htyped, hold]
      rfl
    · rw [if_neg hempty, if_pos ⟨hempty, rfl⟩, Record.filled?_set_str hempty]
      rfl

/-! ## Several property signatures -/

/-- What some property signatures make of one prop, one after another. -/
def signatureChanges (signatures : List PropSignature) (prop : Record) : Record :=
  signatures.foldl (fun prop signature => signatureChange src flavor signature prop) prop

theorem get?_signatureChanges_required (signatures : List PropSignature) (prop : Record) :
    get? (signatureChanges src flavor signatures prop) "required" =
      (get? prop "required").or (signatures.head?.map fun first => .bool first.required) := by
  induction signatures generalizing prop with
  | nil => exact Option.or_none.symm
  | cons first rest ih =>
    rw [signatureChanges, List.foldl_cons, ← signatureChanges, ih, get?_signatureChange_required, Option.or_assoc]
    rfl

theorem get?_signatureChanges_type {signatures : List PropSignature} {last : PropSignature}
    (h : signatures.getLast? = some last) (prop : Record) :
    get? (signatureChanges src flavor signatures prop) (typeKey flavor) = some (signatureType src last) := by
  obtain ⟨init, rfl⟩ := List.getLast?_eq_some_iff.mp h
  rw [signatureChanges, List.foldl_concat, get?_signatureChange_type]

theorem filled?_signatureChanges (signatures : List PropSignature) (prop : Record) :
    Record.filled? (signatureChanges src flavor signatures prop) "description" =
      (Record.filled? prop "description").or (signatures.findSome? signatureText?) := by
  induction signatures generalizing prop with
  | nil => exact Option.or_none.symm
  | cons first rest ih =>
    rw [signatureChanges, List.foldl_cons, ← signatureChanges, ih, filled?_signatureChange, Option.or_assoc,
      List.findSome?_cons]
    cases signatureText? first <;> rfl

/-! ## The handler -/

variable {src flavor} {definition : Definition} {type : Cursor}

/-- The handler changes one prop for each property signature. -/
theorem annotatedProps_eq (doc : Documentation) (hflavor : src.language.flavor = some flavor)
    (htype : definition.propsType? src = some type) : annotatedProps src definition doc =
      .ok (doc.changeProps ((src.propSignatures type).map fun signature =>
        (signature.name, signatureChange src flavor signature))) := by
  rw [annotatedProps, always, hflavor, htype]
  dsimp only
  rw [Documentation.changeProps, List.foldl_map]
  rfl

theorem prop_annotated (doc : Documentation) (signatures : List PropSignature) (name : String) :
    (doc.changeProps (signatures.map fun signature => (signature.name, signatureChange src flavor signature))).prop name =
      signatureChanges src flavor (signatures.filter (·.name == name)) (doc.prop name) := by
  rw [Documentation.prop_changeProps, List.filter_map, List.foldl_map]
  rfl

/-- **Of the property signatures of one name the last gives the type, and the first says whether the prop is required**
and the first with a text describes it, unless this was known before. So a prop that was not known is described as one of
them says just if its type is that of the last, and it has a question mark like the first. -/
theorem annotatedProps_of_signatures (doc : Documentation) (hflavor : src.language.flavor = some flavor)
    (htype : definition.propsType? src = some type) : ∃ after, annotatedProps src definition doc = .ok after ∧
      (∀ name, name ∉ (src.propSignatures type).map (·.name) → get? after.props name = get? doc.props name) ∧
      ∀ name named first last, (src.propSignatures type).filter (·.name == name) = named →
        named.head? = some first → named.getLast? = some last →
          Record.filled? (after.prop name) "description" =
            (Record.filled? (doc.prop name) "description").or (named.findSome? signatureText?) ∧
          get? (after.prop name) (typeKey flavor) = some (signatureType src last) ∧
          get? (after.prop name) "required" = (get? (doc.prop name) "required").or (some (.bool first.required)) ∧
          (get? (doc.prop name) "required" = none → ∀ signature, DescribedBy src flavor signature (after.prop name) ↔
            signatureType src signature = signatureType src last ∧ signature.required = first.required) := by
  refine ⟨_, annotatedProps_eq doc hflavor htype, fun name hname => ?_, fun name named first last hnamed hfirst hlast => ?_⟩
  · apply Documentation.get?_changeProps_of_notMem
    rwa [names, List.map_map]
  rw [prop_annotated, hnamed]
  have htyped := get?_signatureChanges_type src flavor hlast (doc.prop name)
  have hrequired := get?_signatureChanges_required src flavor named (doc.prop name)
  rw [hfirst, Option.map_some] at hrequired
  refine ⟨filled?_signatureChanges .., htyped, hrequired, fun hnone signature => ?_⟩
  rw [hnone, Option.none_or] at hrequired
  constructor
  · rintro ⟨htype', hrequired'⟩
    rw [htyped] at htype'
    rw [hrequired] at hrequired'
    exact ⟨(Option.some.inj htype').symm, (Json.bool.inj (Option.some.inj hrequired')).symm⟩
  · rintro ⟨htype', hrequired'⟩
    exact ⟨htype' ▸ htyped, hrequired' ▸ hrequired⟩

/-- The tree of the object type with one property `a` at some offset, for a type of six letters; `mark` tells whether the
name has a question mark. -/
def propertyTree (start : ℕ) (mark : Bool) (type : String) : Node :=
  let name := start + 1
  let colon := if mark then start + 3 else start + 2
  .mk "object_type" true false "" start (colon + 9)
    [.leaf "\x7b" false "" start name,
      .mk "property_signature" true false "" name (colon + 8)
        ([.leaf "property_identifier" true "name" name (name + 1)]
          ++ (if mark then [.leaf "?" false "" (name + 1) colon] else [])
          ++ [.mk "type_annotation" true false "type" colon (colon + 8)
            [.leaf ":" false "" colon (colon + 1),
              .mk "predefined_type" true false "" (colon + 2) (colon + 8)
                [.leaf type false "" (colon + 2) (colon + 8)]]]),
      .leaf "\x7d" false "" (colon + 8) (colon + 9)]

/-- A function component whose props have a property `a` in two parts of an intersection. -/
def overlapSource : SourceFile :=
  .ofTree (some "widget.tsx") "const A = (props: \x7ba: string\x7d & \x7ba?: number\x7d) => <div />\n" .none
    (.mk "program" true false "" 0 57
      [.mk "lexical_declaration" true false "" 0 56
        [.leaf "const" false "kind" 0 5,
          .mk "variable_declarator" true false "" 6 56
            [.leaf "identifier" true "name" 6 7, .leaf "=" false "" 8 9,
              .mk "arrow_function" true false "value" 10 56
                [.mk "formal_parameters" true false "parameters" 10 45
                  [.leaf "(" false "" 10 11,
                    .mk "required_parameter" true false "" 11 44
                      [.leaf "identifier" true "pattern" 11 16,
                        .mk "type_annotation" true false "type" 16 44
                          [.leaf ":" false "" 16 17,
                            .mk "intersection_type" true false "" 18 44
                              [propertyTree 18 false "string", .leaf "&" false "" 30 31, propertyTree 32 true "number"]]],
                    .leaf ")" false "" 44 45],
                  .leaf "=>" false "" 46 48,
                  .mk "jsx_self_closing_element" true false "body" 49 56
                    [.leaf "<" false "" 49 50, .leaf "identifier" true "name" 50 53, .leaf "/>" false "" 54 56]]]]])

def overlapDefinition : Definition :=
  { kind := .byFunction, name := some "A", exported := false,
    place := (overlapSource.top.walk.find? (·.kind == "arrow_function")).getD overlapSource.top }

/-- The type of its props. -/
def overlapType : Cursor := (overlapDefinition.propsType? overlapSource).getD overlapSource.top

/-- The type of the second property stands with the `required` of the first, as neither of them says. -/
theorem annotatedProps_overlapSource : overlapSource.language.flavor = some .typescript ∧
    overlapDefinition.propsType? overlapSource = some overlapType ∧
    ∃ after, annotatedProps overlapSource overlapDefinition .empty = .ok after ∧
      get? (after.prop "a") "tsType" = some (.obj [("name", .str "number")]) ∧
      get? (after.prop "a") "required" = some (.bool true) ∧
      ∀ signature ∈ overlapSource.propSignatures overlapType,
        ¬ DescribedBy overlapSource .typescript signature (after.prop "a") := by
  have hflavor : overlapSource.language.flavor = some .typescript := by decide +kernel
  have htype : overlapDefinition.propsType? overlapSource = some overlapType := rfl
  have hchecked : (overlapSource.propSignatures overlapType).map
      (fun s => (s.name, signatureType overlapSource s, s.required)) =
      [("a", .obj [("name", .str "string")], true), ("a", .obj [("name", .str "number")], false)] := rfl
  obtain ⟨first, rest, hsignatures, hfirst, hrest⟩ := List.map_eq_cons_iff.mp hchecked
  obtain ⟨last, rest, rfl, hlast, hnil⟩ := List.map_eq_cons_iff.mp hrest
  obtain rfl := List.map_eq_nil_iff.mp hnil
  obtain ⟨hfirstName, hfirstType, hfirstRequired⟩ : _ ∧ _ ∧ _ := by simpa only [Prod.mk.injEq] using hfirst
  obtain ⟨hlastName, hlastType, hlastRequired⟩ : _ ∧ _ ∧ _ := by simpa only [Prod.mk.injEq] using hlast
  obtain ⟨after, hafter, -, hprops⟩ := annotatedProps_of_signatures .empty hflavor htype
  have hnamed : (overlapSource.propSignatures overlapType).filter (·.name == "a") = [first, last] := by
    simp [hsignatures, hfirstName, hlastName]
  obtain ⟨-, htyped, hrequired, hdescribed⟩ := hprops "a" _ first last hnamed rfl rfl
  refine ⟨hflavor, htype, after, hafter, hlastType ▸ htyped, hfirstRequired ▸ hrequired, fun signature hsignature h => ?_⟩
  obtain ⟨hsame, hflag⟩ := (hdescribed rfl signature).mp h
  rw [hsignatures, List.mem_pair] at hsignature
  rcases hsignature with rfl | rfl
  · rw [hfirstType, hlastType] at hsame
    simp at hsame
  · rw [hfirstRequired, hlastRequired] at hflag
    exact Bool.false_ne_true hflag

end Handler

end ComponentDocs

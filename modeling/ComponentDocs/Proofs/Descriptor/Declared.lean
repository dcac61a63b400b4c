import ComponentDocs.Proofs.Descriptor.Circular
import ComponentDocs.Proofs.Descriptor.Sound
import ComponentDocs.Proofs.Fields
import ComponentDocs.Proofs.Source.Chain

/-!
# Declared prop types

The prop types that are put together from the standard ones, and what is described of them.

* `ShapeField.dedupe_eq_lastOfEach`: of the fields of a shape the last of every key counts;
* `PropType.Declares`: the expressions that are put together from standard types, whether they are required, and the
  types that they declare;
* `PropType.RecordsByForm`: the record of a type of every form, from the records of its parts;
* **`describe_of_declares`**: such an expression is described by the type that it declares.
-/

namespace ComponentDocs

/-! ## Fields of a shape -/

namespace ShapeField

/-- The last field of every key, in the order in which the keys first come. -/
def lastOfEach (fields : List ShapeField) : List ShapeField :=
  (fields.map key).eraseDups.filterMap fun name => fields.reverse.find? (·.key == name)

/-- A field under its key. -/
def keyed (field : ShapeField) : String × ShapeField := (field.key, field)

theorem get?_map_keyed (fields : List ShapeField) (name : String) :
    Fields.get? (fields.map keyed) name = fields.find? (·.key == name) := by
  induction fields with
  | nil => rfl
  | cons field fields ih =>
    rw [List.map_cons, Fields.get?_cons, List.find?_cons, ih]
    by_cases h : field.key = name
    · simp [keyed, h]
    · rw [beq_false_of_ne h]
      exact if_neg h

/-- **Of the fields of a shape the last of every key counts.** -/
theorem dedupe_eq_lastOfEach (fields : List ShapeField) : dedupe fields = lastOfEach fields := by
  have hvalues : dedupe fields = ((dedupe fields).map keyed).map Prod.snd := by
    rw [List.map_map]
    exact (List.map_id _).symm
  have hnames : Fields.names (fields.map keyed) = fields.map key := List.map_map
  have hdedupe : (dedupe fields).map keyed = Fields.ofList (fields.map keyed) := map_dedupe (fun _ => rfl) fields
  rw [hvalues, hdedupe, Fields.ofList_eq, List.map_filterMap, hnames, ← List.map_reverse]
  simp only [get?_map_keyed, Option.map_map, Function.comp_def, Option.map_id']
  rfl

end ShapeField

namespace PropType

variable (src : SourceFile)

/-! ## Expressions made of standard types -/

/-- The node is a property of something whose text ends in `PropTypes`. -/
def IsTypeName (node : Node) (name : String) : Prop :=
  node.kind = "member_expression" ∧ ∃ object property, node.child? "object" = some object ∧
    node.child? "property" = some property ∧ "PropTypes".toList <:+ (src.text object).toList ∧
    src.text property = name

/-- The expression calls the standard type of a name with an argument. -/
def IsTypeCall (c : Cursor) (name : String) (argument : Cursor) : Prop :=
  c.kind = "call_expression" ∧
    (∃ callee, c.node.child? "function" = some callee ∧
      (IsTypeName src callee name ∨ callee.kind = "identifier" ∧ src.text callee = name)) ∧
    ∃ arguments, c.child? "arguments" = some arguments ∧ arguments.parts.head? = some argument

/-- The expression is another one with `.isRequired` behind it. -/
def IsRequired (c inner : Cursor) : Prop :=
  c.kind = "member_expression" ∧ src.text? (c.node.child? "property") = some "isRequired" ∧
    c.child? "object" = some inner

/-- An expression with the type that it declares. -/
structure DeclaredType where
  expression : Cursor
  required : Bool
  type : PropType

/-- A keyed value with the type that its value declares. -/
structure DeclaredField where
  pair : Cursor
  value : DeclaredType

/-- The field of a shape: whether it is required is what its value says, and its description is its docblock. -/
def DeclaredField.field (declared : DeclaredField) : ShapeField :=
  .mk (pairKey src declared.pair) declared.value.type declared.value.required (src.docblockBefore declared.pair)

/-- The expression is put together from standard types, with `.isRequired` behind it or not, and declares a type. -/
inductive Declares : Cursor → Bool → PropType → Prop
  /-- A type that has nothing but a name. -/
  | simple {c : Cursor} {name : String} (hname : IsTypeName src c.node name) (hsimple : name ∈ simpleTypes) :
      Declares c false (.simple name)
  /-- One of the values of a list; a value that is no literal has to be computed. -/
  | oneOf {c array : Cursor} (hcall : IsTypeCall src c "oneOf" array) (harray : array.kind = "array") :
      Declares c false (.enum (array.parts.map fun value =>
        { value := src.text value.node, computed := decide (value.kind ∉ literalKinds) }))
  /-- One of the types of a list. -/
  | oneOfType {c array : Cursor} (members : List DeclaredType) (hcall : IsTypeCall src c "oneOfType" array)
      (harray : array.kind = "array") (hmembers : members.map DeclaredType.expression = array.parts)
      (h : ∀ member ∈ members, Declares member.expression member.required member.type) :
      Declares c false (.union (members.map DeclaredType.type))
  /-- A collection of elements of a type. -/
  | collection {c argument : Cursor} {name : String} {required : Bool} {type : PropType}
      (hname : name = "arrayOf" ∨ name = "objectOf") (hcall : IsTypeCall src c name argument)
      (h : Declares argument required type) : Declares c false (.collection name type)
  /-- An instance of what an expression stands for. -/
  | instanceOf {c argument : Cursor} (hcall : IsTypeCall src c "instanceOf" argument) :
      Declares c false (.instanceOf (src.text (src.resolve argument).node))
  /-- An object with the last value of every key. -/
  | shape {c object : Cursor} {name : String} (fields : List DeclaredField) (hname : name = "shape" ∨ name = "exact")
      (hcall : IsTypeCall src c name object) (hobject : object.kind = "object")
      (hpairs : fields.map DeclaredField.pair = object.namedChildren.filter (·.kind == "pair"))
      (hvalues : ∀ field ∈ fields, field.pair.child? "value" = some field.value.expression)
      (h : ∀ field ∈ fields, Declares field.value.expression field.value.required field.value.type) :
      Declares c false (.shape name (ShapeField.lastOfEach (fields.map (DeclaredField.field src))))
  /-- A type with `.isRequired` behind it. -/
  | required {c inner : Cursor} {type : PropType} (hrequired : IsRequired src c inner)
      (h : Declares inner false type) : Declares c true type

variable {src} {c inner argument : Cursor} {name : String} {required : Bool} {type : PropType}

/-! ## Reading an expression -/

theorem IsTypeName.typeName?_eq {node : Node} (h : IsTypeName src node name) : typeName? src node = some name := by
  obtain ⟨hkind, object, property, hobject, hproperty, hsuffix, hname⟩ := h
  have hsuffix : "PropTypes".toList.isSuffixOf (src.text object).toList = true := List.isSuffixOf_iff_suffix.mpr hsuffix
  rw [typeName?, if_neg (by rw [hkind]; decide), if_pos hkind, hobject, hproperty]
  exact (if_pos hsuffix).trans (congrArg some hname)

theorem IsTypeCall.typeCall?_eq (h : IsTypeCall src c name argument) (hname : name ∈ calledTypes) :
    typeCall? src c = some (name, src.resolve argument) := by
  obtain ⟨hkind, ⟨callee, hcallee, htype⟩, arguments, harguments, hhead⟩ := h
  have htypeName : typeName? src callee = some name := by
    rcases htype with htype | ⟨hidentifier, htext⟩
    · exact htype.typeName?_eq
    · rw [typeName?, if_pos hidentifier, htext]
  have hargument : firstArgument? c = some argument := by rw [firstArgument?, harguments]; exact hhead
  rw [typeCall?, if_pos hkind, hcallee, hargument]
  simp [htypeName, hname]

theorem unwrapRequired_of_isRequired (h : IsRequired src c inner) : unwrapRequired src c = (inner, true) := by
  obtain ⟨hkind, hproperty, hobject⟩ := h
  rw [unwrapRequired, if_pos ⟨hkind, beq_iff_eq.mpr hproperty⟩, hobject]
  rfl

theorem unwrapRequired_of_not_required (h : (unwrapRequired src c).2 = false) :
    unwrapRequired src c = (c, false) := by
  rw [unwrapRequired] at h ⊢
  split_ifs at h ⊢
  rfl

theorem unwrapRequired_of_isTypeName (h : IsTypeName src c.node name) (hname : name ≠ "isRequired") :
    unwrapRequired src c = (c, false) := by
  obtain ⟨-, object, property, -, hproperty, -, htext⟩ := h
  refine if_neg fun hrequired => hname ?_
  have hfield : src.text? (c.node.child? "property") = some "isRequired" := beq_iff_eq.mp hrequired.2
  rw [hproperty] at hfield
  exact htext.symm.trans (Option.some.inj hfield)

theorem unwrapRequired_of_isTypeCall (h : IsTypeCall src c name argument) : unwrapRequired src c = (c, false) := by
  refine if_neg fun hrequired => ?_
  rw [h.1] at hrequired
  exact absurd hrequired.1 (by decide)

theorem describeStep_of_isTypeCall (h : IsTypeCall src c name argument) (hname : name ∈ calledTypes)
    (element : Cursor → Except Fault PropType) :
    describeStep src element c = describeCall src element name (src.resolve argument) := by
  have htype : typeName? src c.node = none := by
    have hkind : c.node.kind = "call_expression" := h.1
    rw [typeName?, hkind]
    rfl
  rw [describeStep, unwrapRequired_of_isTypeCall h]
  simp only [htype, h.typeCall?_eq hname]
  rfl

/-! ## Describing an expression -/

variable (src) in
/-- The expression is described by a type, and so is what is left of it without `.isRequired`. -/
structure Described (c : Cursor) (required : Bool) (type : PropType) : Prop where
  required_eq : (unwrapRequired src c).2 = required
  unwrapped : unwrapRequired src (unwrapRequired src c).1 = ((unwrapRequired src c).1, false)
  describe_inner : describe src (unwrapRequired src c).1 = .ok type

/-- What is behind an expression does not change its type. -/
theorem describe_congr {d : Cursor} (h : (unwrapRequired src c).1 = (unwrapRequired src d).1) :
    describe src c = describe src d := by
  change describeStep src _ c = describeStep src _ d
  rw [describeStep, describeStep, h]

theorem Described.describe_eq (h : Described src c required type) : describe src c = .ok type := by
  rw [← h.describe_inner]
  apply describe_congr
  rw [h.unwrapped]

theorem Described.of_plain (hplain : unwrapRequired src c = (c, false)) (h : describe src c = .ok type) :
    Described src c false type := by
  refine ⟨?_, ?_, ?_⟩
  all_goals rw [hplain]
  · exact hplain
  · exact h

theorem Described.of_isTypeCall (hc : c ∈ src.top.walk) (hcall : IsTypeCall src c name argument)
    (hname : name ∈ calledTypes)
    (h : describeCall src (describe src) name (src.resolve argument) = .ok type) : Described src c false type := by
  refine .of_plain (unwrapRequired_of_isTypeCall hcall) ?_
  rw [describe_eq_describeStep hc, describeStep_of_isTypeCall hcall hname, h]

theorem Described.of_isTypeName (hname : IsTypeName src c.node name) (hsimple : name ∈ simpleTypes) :
    Described src c false (.simple name) := by
  have hplain : unwrapRequired src c = (c, false) :=
    unwrapRequired_of_isTypeName hname fun heq => absurd (heq ▸ hsimple) (by decide)
  refine .of_plain hplain ?_
  have htype : (typeName? src c.node).filter simpleTypes.contains = some name := by
    rw [hname.typeName?_eq]
    exact Option.filter_some_pos (List.contains_iff_mem.mpr hsimple)
  change describeStep src _ c = _
  rw [describeStep, hplain]
  simp only [htype]

theorem Described.of_isRequired (hrequired : IsRequired src c inner) (h : Described src inner false type) :
    Described src c true type := by
  have hc := unwrapRequired_of_isRequired hrequired
  refine ⟨?_, ?_, ?_⟩
  all_goals rw [hc]
  · exact unwrapRequired_of_not_required h.required_eq
  · exact h.describe_eq

theorem IsTypeCall.mem_walk (h : IsTypeCall src c name argument) (hc : c ∈ src.top.walk) : argument ∈ src.top.walk := by
  obtain ⟨-, -, arguments, harguments, hhead⟩ := h
  exact Cursor.parts_subset_walk (Cursor.child?_mem_walk hc harguments) (List.mem_of_mem_head? hhead)

theorem resolve_literal (h : c.kind = "array" ∨ c.kind = "object") : src.resolve c = c :=
  SourceFile.resolve_of_kind (by rcases h with h | h <;> rw [h] <;> decide) (by rcases h with h | h <;> rw [h] <;> decide)

theorem enumMember_eq : enumMember src = fun value =>
    { value := src.text value.node, computed := decide (value.kind ∉ literalKinds) } := by
  funext value
  rw [enumMember, decide_not, ← List.elem_eq_mem]

/-- A declared type is not the name of a variable that holds one. -/
theorem Declares.resolve_eq (h : Declares src c required type) : src.resolve c = c := by
  have hkind : c.kind = "member_expression" ∨ c.kind = "call_expression" := by
    cases h with
    | simple hname => exact Or.inl hname.1
    | oneOf hcall => exact Or.inr hcall.1
    | oneOfType _ hcall => exact Or.inr hcall.1
    | collection _ hcall => exact Or.inr hcall.1
    | instanceOf hcall => exact Or.inr hcall.1
    | shape _ _ hcall => exact Or.inr hcall.1
    | required hrequired => exact Or.inl hrequired.1
  rcases hkind with hkind | hkind
  · exact SourceFile.resolve_of_kind (by rw [hkind]; decide) (by rw [hkind]; decide)
  · exact SourceFile.resolve_of_kind (by rw [hkind]; decide) (by rw [hkind]; decide)

theorem mapM_pairs {object : Cursor} {fields : List DeclaredField}
    (hpairs : fields.map DeclaredField.pair = object.namedChildren.filter (·.kind == "pair"))
    (hvalues : ∀ field ∈ fields, field.pair.child? "value" = some field.value.expression)
    (h : ∀ field ∈ fields,
      Described src field.value.expression field.value.required field.value.type) :
    (object.namedChildren.filter (·.kind == "pair")).mapM (fun pair => do
      let (value, required) := unwrapRequired src ((pair.child? "value").getD pair)
      pure (ShapeField.mk (pairKey src pair) (← describe src value) required (src.docblockBefore pair))) =
        .ok (fields.map (DeclaredField.field src)) := by
  rw [← hpairs]
  refine mapM_map_ok fun field hfield => ?_
  have hdescribed := h field hfield
  have hunwrapped : unwrapRequired src field.value.expression =
      ((unwrapRequired src field.value.expression).1, field.value.required) := Prod.ext rfl hdescribed.required_eq
  rw [hvalues field hfield, Option.getD_some, hunwrapped]
  dsimp only
  rw [hdescribed.describe_inner]
  rfl

theorem Declares.described (h : Declares src c required type) (hc : c ∈ src.top.walk) :
    Described src c required type := by
  induction h with
  | simple hname hsimple => exact .of_isTypeName hname hsimple
  | oneOf hcall harray =>
    refine .of_isTypeCall hc hcall (by decide) ?_
    rw [resolve_literal (.inl harray), describeCall, if_pos rfl, if_pos harray, enumMember_eq]
  | oneOfType members hcall harray hmembers _ ih =>
    refine .of_isTypeCall hc hcall (by decide) ?_
    rw [resolve_literal (.inl harray), describeCall, if_neg (by decide), if_pos rfl, if_pos harray, ← hmembers,
      mapM_map_ok fun member hmember => (ih member hmember ?_).describe_eq]
    · rfl
    · refine Cursor.parts_subset_walk (hcall.mem_walk hc) ?_
      rw [← hmembers]
      exact List.mem_map_of_mem hmember
  | collection hname hcall h ih =>
    refine .of_isTypeCall hc hcall (by rcases hname with rfl | rfl <;> decide) ?_
    rw [h.resolve_eq, describeCall, if_neg (by rcases hname with rfl | rfl <;> decide),
      if_neg (by rcases hname with rfl | rfl <;> decide), if_pos hname, (ih (hcall.mem_walk hc)).describe_eq]
    rfl
  | instanceOf hcall =>
    refine .of_isTypeCall hc hcall (by decide) ?_
    rw [describeCall, if_neg (by decide), if_neg (by decide), if_neg (by decide), if_pos rfl]
  | @shape c object name fields hname hcall hobject hpairs hvalues _ ih =>
    refine .of_isTypeCall hc hcall (by rcases hname with rfl | rfl <;> decide) ?_
    have hfields : ∀ field ∈ fields, Described src field.value.expression field.value.required field.value.type := by
      intro field hfield
      have hpair : field.pair ∈ object.namedChildren.filter (·.kind == "pair") := by
        rw [← hpairs]
        exact List.mem_map_of_mem hfield
      have hmem := Cursor.namedChildren_subset_walk (hcall.mem_walk hc) (List.mem_filter.mp hpair).1
      exact ih field hfield (Cursor.child?_mem_walk hmem (hvalues field hfield))
    rw [resolve_literal (.inr hobject), describeCall, if_neg (by rcases hname with rfl | rfl <;> decide),
      if_neg (by rcases hname with rfl | rfl <;> decide), if_neg (by rcases hname with rfl | rfl <;> decide),
      if_neg (by rcases hname with rfl | rfl <;> decide), if_pos hobject]
    dsimp only
    rw [mapM_pairs hpairs hvalues hfields]
    exact congrArg Except.ok (congrArg _ (ShapeField.dedupe_eq_lastOfEach _))
  | required hrequired _ ih => exact .of_isRequired hrequired (ih (Cursor.child?_mem_walk hc hrequired.2.2))

/-! ## The record of a type -/

/-- The record of a type of every form, from the records of its parts. -/
structure RecordsByForm : Prop where
  simple : ∀ name, (simple name).record = [("name", .str name)]
  enum : ∀ members, (enum members).record = [("name", .str "enum"), ("value", .arr (members.map fun member =>
    .obj [("value", .str member.value), ("computed", .bool member.computed)]))]
  union : ∀ members, (union members).record =
    [("name", .str "union"), ("value", .arr (members.map fun member => .obj member.record))]
  /-- The kind of a type whose contents are computed is kept, and their text. -/
  computed : ∀ name text, (computed name text).record =
    [("name", .str name), ("computed", .bool true), ("value", .str text)]
  collection : ∀ name element, (collection name element).record = [("name", .str name), ("value", .obj element.record)]
  instanceOf : ∀ text, (instanceOf text).record = [("name", .str "instanceOf"), ("value", .str text)]
  /-- A shape holds the record of every field under its key. -/
  shape : ∀ name fields, (shape name fields).record =
    [("name", .str name), ("value", .obj (fields.map fun field => (field.key, .obj field.record)))]
  custom : ∀ text, (custom text).record = [("name", .str "custom"), ("raw", .str text)]
  /-- The record of a field is that of its type, and says whether the field is required. -/
  field : ∀ key type required, (ShapeField.mk key type required none).record =
    Fields.set type.record "required" (.bool required)
  /-- A field that has a description says it as well; an empty one is none. -/
  described : ∀ key type required text, (ShapeField.mk key type required (some text)).record =
    if text = "" then Fields.set type.record "required" (.bool required)
    else Fields.set (Fields.set type.record "required" (.bool required)) "description" (.str text)

theorem recordsByForm : RecordsByForm where
  simple _ := by rw [record]
  enum _ := by
    rw [record]
    rfl
  union members := by
    rw [record, typeRecords_eq]
    rfl
  computed _ _ := by rw [record]
  collection _ _ := by rw [record]
  instanceOf _ := by rw [record]
  shape _ fields := by rw [record, fieldRecords_eq, List.map_congr_left fun field _ => field.entry_eq]
  custom _ := by rw [record]
  field _ _ _ := by rw [ShapeField.record]
  described _ _ _ _ := by rw [ShapeField.record]

/-- **An expression that is put together from standard types is described by the type that it declares**, whether
`.isRequired` is behind it or not, and the record of the type is put together from those of its parts. -/
theorem describe_of_declares (hc : c ∈ src.top.walk) (h : Declares src c required type) :
    describe src c = .ok type ∧ describe src (unwrapRequired src c).1 = .ok type ∧
      (unwrapRequired src c).2 = required ∧ RecordsByForm :=
  have hdescribed := h.described hc
  ⟨hdescribed.describe_eq, hdescribed.describe_inner, hdescribed.required_eq, recordsByForm⟩

/-! ## A shape that repeats a key -/

/-- The standard type that starts at an offset. -/
def sampleName (field : String) (start stop : ℕ) : Node :=
  .mk "member_expression" true false field start stop
    [.leaf "identifier" true "object" start (start + 9), .leaf "." false "" (start + 9) (start + 10),
      .leaf "property_identifier" true "property" (start + 10) stop]

/-- The first value of the key. -/
def samplePair : Node :=
  .mk "pair" true false "" 17 36
    [.leaf "property_identifier" true "key" 17 18, .leaf ":" false "" 18 19, sampleName "value" 20 36]

/-- The call in the second value. -/
def sampleArray : Node :=
  .mk "call_expression" true false "object" 50 83
    [sampleName "function" 50 67,
      .mk "arguments" true false "arguments" 67 83
        [.leaf "(" false "" 67 68, sampleName "" 68 82, .leaf ")" false "" 82 83]]

/-- The second value of the key, which is required. -/
def sampleRequired : Node :=
  .mk "member_expression" true false "value" 50 94
    [sampleArray, .leaf "." false "" 83 84, .leaf "property_identifier" true "property" 84 94]

def sampleLastPair : Node :=
  .mk "pair" true false "" 47 94
    [.leaf "property_identifier" true "key" 47 48, .leaf ":" false "" 48 49, sampleRequired]

def sampleObject : Node :=
  .mk "object" true false "" 16 95
    [.leaf "\x7b" false "" 16 17, samplePair, .leaf "," false "" 36 37, .leaf "comment" true "" 38 46, sampleLastPair,
      .leaf "\x7d" false "" 94 95]

def sampleArguments : Node :=
  .mk "arguments" true false "arguments" 15 96 [.leaf "(" false "" 15 16, sampleObject, .leaf ")" false "" 95 96]

def sampleShape : Node := .mk "call_expression" true false "" 0 96 [sampleName "function" 0 15, sampleArguments]

def shapeSource : SourceFile :=
  .ofTree none
    "PropTypes.shape(\x7ba: PropTypes.string, /** D */ a: PropTypes.arrayOf(PropTypes.bool).isRequired\x7d)" .none
    sampleShape

/-- Where the standard types start and end, and what they are called. -/
def sampleNames : List (ℕ × ℕ × String) := [(0, 15, "shape"), (20, 36, "string"), (50, 67, "arrayOf"), (68, 82, "bool")]

theorem isTypeName_sampleName (field : String) {start stop : ℕ} {name : String}
    (h : (start, stop, name) ∈ sampleNames) : IsTypeName shapeSource (sampleName field start stop) name := by
  have htexts : ∀ type ∈ sampleNames,
      shapeSource.text (.leaf "identifier" true "object" type.1 (type.1 + 9)) = "PropTypes" ∧
        shapeSource.text (.leaf "property_identifier" true "property" (type.1 + 10) type.2.1) = type.2.2 := by
    decide +kernel
  obtain ⟨hobject, hproperty⟩ := htexts _ h
  exact ⟨rfl, _, _, rfl, rfl, ⟨[], by rw [List.nil_append, hobject]⟩, hproperty⟩

/-- The values of the key with the types that they declare. -/
def sampleFields : List DeclaredField :=
  let within : List Node := [sampleObject, sampleArguments, sampleShape]
  [⟨⟨samplePair, within⟩, ⟨sampleName "value" 20 36, samplePair :: within⟩, false, .simple "string"⟩,
    ⟨⟨sampleLastPair, within⟩, ⟨sampleRequired, sampleLastPair :: within⟩, true, .collection "arrayOf" (.simple "bool")⟩]

theorem sampleFields_field : sampleFields.map (DeclaredField.field shapeSource) =
    [.mk "a" (.simple "string") false none, .mk "a" (.collection "arrayOf" (.simple "bool")) true (some "D")] := by
  have htexts : sampleFields.map (fun field => (pairKey shapeSource field.pair, shapeSource.docblockBefore field.pair)) =
      [("a", none), ("a", some "D")] := by decide +kernel
  simp only [sampleFields, List.map_cons, List.map_nil, List.cons.injEq, Prod.mk.injEq] at htexts
  obtain ⟨⟨hfirst, hundocumented⟩, ⟨hlast, hdocblock⟩, -⟩ := htexts
  simp only [sampleFields, List.map_cons, List.map_nil, DeclaredField.field, hfirst, hlast, hundocumented, hdocblock]

theorem declares_sampleFields : ∀ field ∈ sampleFields,
    Declares shapeSource field.value.expression field.value.required field.value.type := by
  have hbool : IsTypeName shapeSource (sampleName "" 68 82) "bool" := isTypeName_sampleName "" (by decide)
  have harrayOf : IsTypeName shapeSource (sampleName "function" 50 67) "arrayOf" :=
    isTypeName_sampleName "function" (by decide)
  intro field hfield
  rcases List.mem_pair.mp hfield with rfl | rfl
  · exact .simple (isTypeName_sampleName "value" (by decide)) (by decide)
  · apply Declares.required ⟨rfl, by decide +kernel, rfl⟩
    apply Declares.collection (.inl rfl) ⟨rfl, ⟨_, rfl, .inl harrayOf⟩, _, rfl, rfl⟩
    exact .simple hbool (by decide)

/-- The last value of the key counts, with its docblock. -/
theorem describe_sampleShape : shapeSource.top ∈ shapeSource.top.walk ∧
    Declares shapeSource shapeSource.top false
      (.shape "shape" (ShapeField.lastOfEach (sampleFields.map (DeclaredField.field shapeSource)))) ∧
    describe shapeSource shapeSource.top =
      .ok (.shape "shape" [.mk "a" (.collection "arrayOf" (.simple "bool")) true (some "D")]) ∧
    (shape "shape" [.mk "a" (.collection "arrayOf" (.simple "bool")) true (some "D")]).record =
      [("name", .str "shape"), ("value", .obj [("a", .obj [("name", .str "arrayOf"),
        ("value", .obj [("name", .str "bool")]), ("required", .bool true), ("description", .str "D")])])] := by
  have hc : shapeSource.top ∈ shapeSource.top.walk := Cursor.self_mem_walk _
  have hshape : IsTypeName shapeSource (sampleName "function" 0 15) "shape" :=
    isTypeName_sampleName "function" (by decide)
  have hdeclares : Declares shapeSource shapeSource.top false
      (.shape "shape" (ShapeField.lastOfEach (sampleFields.map (DeclaredField.field shapeSource)))) := by
    refine .shape sampleFields (.inl rfl) ⟨rfl, ⟨_, rfl, .inl hshape⟩, _, rfl, rfl⟩ rfl rfl ?_ declares_sampleFields
    intro field hfield
    rcases List.mem_pair.mp hfield with rfl | rfl <;> rfl
  refine ⟨hc, hdeclares, ?_, rfl⟩
  rw [(describe_of_declares hc hdeclares).1, sampleFields_field]
  rfl

end PropType

end ComponentDocs

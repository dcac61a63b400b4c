import ComponentDocs.Descriptor.TypeDescriptor
import ComponentDocs.Proofs.Fields
import ComponentDocs.Proofs.Tree.Order
import Mathlib.Logic.Relation

/-!
# Types made of types

The descriptor of a type is made of the descriptors of its parts.

* `Node.unionLeaves`: the types that a union joins, whatever unions it is put together from;
* `SourceFile.describeNode_eq`: the descriptor of a type by its kind, `describeUnion_children`: of a union by its leaves;
* `TypeDescriptor.record_compound`, `record_orNull`: the records of a type with parts and of one that also admits null;
* `SourceFile.DescribesByParts`: what holds of types without parts, unions, arrays, generic types, annotations,
  parentheses and types that admit null;
* **`describesByParts`**: it holds of every source.
-/

namespace ComponentDocs

open Relation

/-! ## The leaves of a union -/

def Node.isUnion (node : Node) : Bool := node.named && node.kind == "union_type"

/-- A part that is no union, with nothing but unions above it. -/
def Cursor.isUnionLeaf (c : Cursor) : Bool := c.node.isPart && !c.node.isUnion && c.ancestors.all Node.isUnion

/-- The types that a union joins, those of the unions in it in their place: the parts below it that are no unions and
have nothing but unions above them, in the order of the source. -/
def Node.unionLeaves (node : Node) : List Node := ((Cursor.root node).walk.filter Cursor.isUnionLeaf).map (·.node)

namespace Cursor

variable {ancestors : List Node} {node : Node}

theorem filter_walkFrom_of_isUnion (h : node.isUnion = true) :
    (walkFrom ancestors node).filter isUnionLeaf =
      (node.children.flatMap (walkFrom (node :: ancestors))).filter isUnionLeaf := by
  rw [walkFrom_eq, List.filter_cons_of_neg (by simp [isUnionLeaf, h])]

/-- Nothing below a part that is no union is a leaf. -/
theorem filter_walkFrom_of_not_isUnion (h : node.isUnion = false) (hancestors : ancestors.all Node.isUnion = true) :
    (walkFrom ancestors node).filter isUnionLeaf = if node.isPart then [⟨node, ancestors⟩] else [] := by
  have hbelow : (node.children.flatMap (walkFrom (node :: ancestors))).filter isUnionLeaf = [] := by
    refine List.filter_eq_nil_iff.mpr fun c hc hleaf => ?_
    obtain ⟨child, -, hc⟩ := List.mem_flatMap.mp hc
    have habove : node ∈ c.ancestors := (isAbove_of_mem_child hc).subset List.mem_cons_self
    rw [isUnionLeaf, Bool.and_eq_true, List.all_eq_true] at hleaf
    rw [hleaf.2 node habove] at h
    cases h
  rw [walkFrom_eq, List.filter_cons, hbelow]
  simp [isUnionLeaf, h, hancestors]

end Cursor

/-! ## Records -/

namespace TypeDescriptor

theorem records_eq (types : List TypeDescriptor) : records types = types.map toJson := by
  induction types with
  | nil => rfl
  | cons type rest ih => rw [records, ih, List.map_cons, toJson]

theorem record_compound (name raw : String) (elements : List TypeDescriptor) : (compound name raw elements).record =
    [("name", .str name), ("raw", .str raw), ("elements", .arr (elements.map toJson))] := by
  rw [record, records_eq]

/-- The record of a type that also admits null says so, and is that of the type otherwise. -/
theorem record_orNull (type : TypeDescriptor) : type.orNull.record = Fields.set type.record "nullable" (.bool true) := by
  cases type with
  | nullable type => rw [orNull, record, Fields.set_set]
  | _ => rfl

theorem orNull_orNull (type : TypeDescriptor) : type.orNull.orNull = type.orNull := by
  cases type <;> rfl

end TypeDescriptor

namespace SourceFile

variable (src : SourceFile)

/-! ## Parts -/

theorem describeFirst_eq (unwrap : Bool) (nodes : List Node) :
    src.describeFirst unwrap nodes = (nodes.filter Node.isPart).head?.map (src.describeNode unwrap) := by
  induction nodes with
  | nil => rfl
  | cons node rest ih =>
    rw [describeFirst, List.filter_cons]
    split_ifs
    · rfl
    · exact ih

theorem describeParts_eq (nodes : List Node) :
    src.describeParts nodes = (nodes.filter Node.isPart).map (src.describeNode true) := by
  induction nodes with
  | nil => rfl
  | cons node rest ih =>
    rw [describeParts, List.filter_cons, ih]
    split_ifs <;> rfl

theorem describeUnion_cons (node : Node) (rest : List Node) : src.describeUnion (node :: rest) =
    (if node.isUnion then src.describeUnion node.children
      else if node.isPart then [src.describeNode true node] else []) ++ src.describeUnion rest := by
  cases node with
  | mk kind named missing field start stop children =>
    rw [describeUnion]
    simp only [Node.isUnion, Node.kind, Node.named, Node.children, Bool.and_comm named]
    split_ifs <;> simp_all

theorem describeArguments_eq (byField : Bool) (nodes : List Node) : src.describeArguments byField nodes =
    ((nodes.find? (holdsArguments byField)).map fun node => node.parts.map (src.describeNode true)).getD [] := by
  induction nodes with
  | nil => rfl
  | cons node rest ih =>
    cases node with
    | mk kind named missing field start stop children =>
      rw [describeArguments, List.find?_cons, ih, describeParts_eq]
      cases holdsArguments byField (.mk kind named missing field start stop children) <;> rfl

theorem describeNode_eq (unwrap : Bool) (node : Node) : src.describeNode unwrap node =
    if unwrap && annotationKinds.contains node.kind then (node.parts.head?.map (src.describeNode false)).getD .any
    else if plainTypeKinds.contains node.kind then .simple (src.text node)
    else if node.kind = "literal_type" then .literal (src.text node)
    else if node.kind = "flow_maybe_type" then
      ((node.parts.head?.map (src.describeNode true)).getD (.simple (withoutQuestion (src.text node)))).orNull
    else if node.kind = "parenthesized_type" then
      (node.parts.head?.map (src.describeNode true)).getD (.simple (src.text node))
    else if node.kind = "union_type" then .compound "union" (src.text node) (src.describeUnion node.children)
    else if node.kind = "array_type" then
      .compound "Array" (src.text node) (node.parts.head?.map (src.describeNode true)).toList
    else if node.kind = "generic_type" then
      .compound ((src.text? (genericName? node.children).1).getD (src.text node)) (src.text node)
        (src.describeArguments (genericName? node.children).2 node.children)
    else if node.kind = "function_type" then .signature .function (src.text node)
    else if node.kind = "object_type" then .signature .object (src.text node)
    else .simple (src.text node) := by
  cases node with
  | mk kind named missing field start stop children =>
    rw [describeNode]
    simp only [describeFirst_eq, Node.kind, Node.parts, Node.children]
    rfl

/-! ## Unions -/

/-- The elements of a union are the descriptors of its leaves. -/
theorem describeUnion_children {node : Node} (hunion : node.isUnion = true) {ancestors : List Node}
    (hancestors : ancestors.all Node.isUnion = true) : src.describeUnion node.children =
      ((node.children.flatMap (Cursor.walkFrom (node :: ancestors))).filter Cursor.isUnionLeaf).map
        fun c => src.describeNode true c.node := by
  induction node using Node.induction generalizing ancestors with
  | step node ih =>
    have habove : (node :: ancestors).all Node.isUnion = true := by rw [List.all_cons, hunion, hancestors]; rfl
    -- The children one after another: a union among them is replaced by its leaves, any other part is a leaf.
    have hnodes : ∀ nodes ⊆ node.children, src.describeUnion nodes =
        ((nodes.flatMap (Cursor.walkFrom (node :: ancestors))).filter Cursor.isUnionLeaf).map
          fun c => src.describeNode true c.node := by
      intro nodes hsub
      induction nodes with
      | nil => rfl
      | cons child rest ihrest =>
        obtain ⟨hchild, hrest⟩ := List.cons_subset.mp hsub
        rw [describeUnion_cons, ihrest hrest, List.flatMap_cons, List.filter_append, List.map_append]
        congr 1
        cases hkind : child.isUnion with
        | true => rw [Cursor.filter_walkFrom_of_isUnion hkind, ← ih child hchild hkind habove, if_pos rfl]
        | false =>
          rw [Cursor.filter_walkFrom_of_not_isUnion hkind habove, if_neg (by decide)]
          split_ifs <;> rfl
    exact hnodes node.children (List.Subset.refl _)

theorem describeUnion_unionLeaves {node : Node} (h : node.isUnion = true) :
    src.describeUnion node.children = node.unionLeaves.map (src.describeNode true) := by
  rw [Node.unionLeaves, Cursor.walk, Cursor.root, Cursor.filter_walkFrom_of_isUnion h, List.map_map]
  exact src.describeUnion_children h rfl

theorem mem_unionLeaves {node leaf : Node} (h : leaf ∈ node.unionLeaves) :
    leaf.isPart = true ∧ leaf.kind ≠ "union_type" := by
  obtain ⟨c, hc, rfl⟩ := List.mem_map.mp h
  have hleaf := (List.mem_filter.mp hc).2
  simp only [Cursor.isUnionLeaf, Bool.and_eq_true, Bool.not_eq_true'] at hleaf
  refine ⟨hleaf.1.1, fun hkind => ?_⟩
  have hnamed := (Bool.and_eq_true_iff.mp hleaf.1.1).1
  simp [Node.isUnion, hnamed, hkind] at hleaf

/-! ## Types with parts -/

section

variable {node type : Node}

theorem describeType_some (node : Node) : src.describeType (some node) = src.describeNode true node := rfl

theorem describeType_plain (hkind : node.kind ∈ plainTypeKinds) :
    src.describeType (some node) = .simple (src.text node) := by
  have hannotation : node.kind ∉ annotationKinds := fun h =>
    absurd ((by decide : ∀ kind ∈ annotationKinds, kind ∉ plainTypeKinds) _ h) (not_not_intro hkind)
  rw [describeType_some, describeNode_eq]
  simp [hkind, hannotation]

theorem describeType_literal (hkind : node.kind = "literal_type") :
    src.describeType (some node) = .literal (src.text node) := by
  rw [describeType_some, describeNode_eq]
  simp [hkind, annotationKinds, plainTypeKinds]

theorem describeType_signature {form : SignatureForm} (hkind : node.kind = form.name ++ "_type") :
    src.describeType (some node) = .signature form (src.text node) := by
  rw [describeType_some, describeNode_eq]
  cases form <;> simp [hkind, SignatureForm.name, annotationKinds, plainTypeKinds]

theorem describeType_union (h : node.isUnion = true) : src.describeType (some node) =
    .compound "union" (src.text node) (node.unionLeaves.map fun leaf => src.describeType (some leaf)) := by
  have hkind : node.kind = "union_type" := eq_of_beq (Bool.and_eq_true_iff.mp h).2
  rw [describeType_some, describeNode_eq, describeUnion_unionLeaves src h]
  simp [hkind, annotationKinds, plainTypeKinds, describeType]

theorem describeType_array (hkind : node.kind = "array_type") (h : node.parts.head? = some type) :
    src.describeType (some node) = .compound "Array" (src.text node) [src.describeType (some type)] := by
  rw [describeType_some, describeNode_eq, h]
  simp [hkind, annotationKinds, plainTypeKinds, describeType]

/-- The name and the arguments of a generic type: what fills the fields, or else the first part and the first part that
is a list of arguments. -/
def IsGenericOf (node name arguments : Node) : Prop :=
  (node.child? "name" = some name ∧ node.child? "type_arguments" = some arguments) ∨
    ((node.child? "name" = none ∨ node.child? "type_arguments" = none) ∧ node.parts.head? = some name ∧
      node.parts.find? (·.kind == "type_arguments") = some arguments)

theorem any_field_iff (node : Node) (field : String) :
    node.children.any (·.field == field) = (node.child? field).isSome := by
  rw [Bool.eq_iff_iff, List.any_eq_true, Node.child?, List.find?_isSome]

theorem IsGenericOf.genericName? {name arguments : Node} (h : IsGenericOf node name arguments) :
    ∃ byField, ComponentDocs.genericName? node.children = (some name, byField) ∧
      node.children.find? (holdsArguments byField) = some arguments := by
  unfold ComponentDocs.genericName?
  rw [any_field_iff]
  rcases h with ⟨hname, harguments⟩ | ⟨hmissing, hname, harguments⟩
  · rw [show node.children.find? (·.field == "name") = some name from hname, harguments]
    exact ⟨true, rfl, harguments⟩
  · refine ⟨false, ?_, ?_⟩
    · rw [← hname]
      rcases hmissing with hmissing | hmissing
      · rw [show node.children.find? (·.field == "name") = none from hmissing]
        rfl
      · rw [hmissing]
        cases node.children.find? (·.field == "name") <;> rfl
    · rw [← harguments, Node.parts, List.find?_filter]
      simp only [Bool.decide_and, Bool.decide_eq_true]
      rfl

theorem describeType_generic {name arguments : Node} (hkind : node.kind = "generic_type")
    (h : IsGenericOf node name arguments) : src.describeType (some node) =
      .compound (src.text name) (src.text node)
        (arguments.parts.map fun argument => src.describeType (some argument)) := by
  obtain ⟨byField, hname, harguments⟩ := h.genericName?
  rw [describeType_some, describeNode_eq, hname, describeArguments_eq, harguments]
  simp [hkind, annotationKinds, plainTypeKinds, describeType, text?]

/-! ## Signs around a type -/

/-- The second node is the type in the parentheses. -/
def InParens (outer inner : Node) : Prop := outer.kind = "parenthesized_type" ∧ outer.parts.head? = some inner

theorem describeType_parens (h : ReflTransGen InParens node type) :
    src.describeType (some node) = src.describeType (some type) := by
  induction h using ReflTransGen.head_induction_on with
  | refl => rfl
  | head hstep _ ih =>
    rw [← ih, describeType_some, describeNode_eq, hstep.2]
    simp [hstep.1, annotationKinds, plainTypeKinds, describeType]

theorem describeType_annotation (hkind : node.kind ∈ annotationKinds) (h : node.parts.head? = some type)
    (htype : type.kind ∉ annotationKinds) : src.describeType (some node) = src.describeType (some type) := by
  have hunwrapped : src.describeNode false type = src.describeNode true type := by
    rw [describeNode_eq, describeNode_eq]
    simp [htype]
  rw [describeType_some, describeType_some, describeNode_eq, h, ← hunwrapped]
  simp [hkind]

theorem describeType_maybe (hkind : node.kind = "flow_maybe_type") (h : node.parts.head? = some type) :
    src.describeType (some node) = (src.describeType (some type)).orNull := by
  rw [describeType_some, describeNode_eq, h]
  simp [hkind, annotationKinds, plainTypeKinds, describeType]

end

/-! ## Together -/

/-- The descriptor and the record of a type are made of those of its parts. -/
structure DescribesByParts : Prop where
  /-- A type that is described by its text has nothing but a name. -/
  plain : ∀ node, node.kind ∈ plainTypeKinds → (src.describeType (some node)).record = [("name", .str (src.text node))]
  /-- A literal has its text for a value. -/
  literal : ∀ node, node.kind = "literal_type" →
    (src.describeType (some node)).record = [("name", .str "literal"), ("value", .str (src.text node))]
  /-- The type of a function or an object says which of both it is. -/
  signature : ∀ node (form : SignatureForm), node.kind = form.name ++ "_type" →
    (src.describeType (some node)).record =
      [("name", .str "signature"), ("type", .str form.name), ("raw", .str (src.text node))]
  /-- A union, however it is put together, has the descriptors of its leaves; none of them is a union or a comment. -/
  union : ∀ node, node.isUnion = true →
    src.describeType (some node) =
        .compound "union" (src.text node) (node.unionLeaves.map fun leaf => src.describeType (some leaf)) ∧
      (src.describeType (some node)).record = [("name", .str "union"), ("raw", .str (src.text node)),
        ("elements", .arr (node.unionLeaves.map fun leaf => .obj (src.describeType (some leaf)).record))] ∧
      ∀ leaf ∈ node.unionLeaves, leaf.isPart = true ∧ leaf.kind ≠ "union_type"
  /-- An array has the descriptor of its element. -/
  array : ∀ node element, node.kind = "array_type" → node.parts.head? = some element →
    src.describeType (some node) = .compound "Array" (src.text node) [src.describeType (some element)] ∧
      (src.describeType (some node)).record = [("name", .str "Array"), ("raw", .str (src.text node)),
        ("elements", .arr [.obj (src.describeType (some element)).record])]
  /-- A generic type has the descriptors of its arguments. -/
  generic : ∀ node name arguments, node.kind = "generic_type" → IsGenericOf node name arguments →
    src.describeType (some node) = .compound (src.text name) (src.text node)
        (arguments.parts.map fun argument => src.describeType (some argument)) ∧
      (src.describeType (some node)).record = [("name", .str (src.text name)), ("raw", .str (src.text node)),
        ("elements", .arr (arguments.parts.map fun argument => .obj (src.describeType (some argument)).record))]
  /-- An annotation has the descriptor of the type in it. -/
  annotation : ∀ node type, node.kind ∈ annotationKinds → node.parts.head? = some type → type.kind ∉ annotationKinds →
    src.describeType (some node) = src.describeType (some type)
  /-- A type in any number of parentheses has the descriptor of the type. -/
  parentheses : ∀ outer type, ReflTransGen InParens outer type →
    src.describeType (some outer) = src.describeType (some type)
  /-- A type that also admits null has the record of the type, with nothing but a mark added. -/
  nullable : ∀ node type, node.kind = "flow_maybe_type" → node.parts.head? = some type →
    (src.describeType (some node)).record = Fields.set (src.describeType (some type)).record "nullable" (.bool true)
  /-- Admitting null twice is the same as once. -/
  nullable_twice : ∀ node type inner, node.kind = "flow_maybe_type" → node.parts.head? = some type →
    type.kind = "flow_maybe_type" → type.parts.head? = some inner →
      src.describeType (some node) = src.describeType (some type)

/-- **The descriptor and the record of every type are made of those of its parts.** -/
theorem describesByParts : src.DescribesByParts where
  plain _ hkind := by rw [src.describeType_plain hkind, TypeDescriptor.record]
  literal _ hkind := by rw [src.describeType_literal hkind, TypeDescriptor.record]
  signature _ _ hkind := by rw [src.describeType_signature hkind, TypeDescriptor.record]
  union _ h := by
    refine ⟨src.describeType_union h, ?_, fun _ => mem_unionLeaves⟩
    rw [src.describeType_union h, TypeDescriptor.record_compound, List.map_map]
    rfl
  array _ _ hkind h := by
    refine ⟨src.describeType_array hkind h, ?_⟩
    rw [src.describeType_array hkind h, TypeDescriptor.record_compound]
    rfl
  generic _ _ _ hkind h := by
    refine ⟨src.describeType_generic hkind h, ?_⟩
    rw [src.describeType_generic hkind h, TypeDescriptor.record_compound, List.map_map]
    rfl
  annotation _ _ := src.describeType_annotation
  parentheses _ _ := src.describeType_parens
  nullable node type hkind h := by rw [src.describeType_maybe hkind h, TypeDescriptor.record_orNull]
  nullable_twice node type inner hkind h htype hinner := by
    rw [src.describeType_maybe hkind h, src.describeType_maybe htype hinner, TypeDescriptor.orNull_orNull]

/-! ## A union of unions -/

/-- The type `??C`, from byte 17 on. -/
def sampleMaybe : Node :=
  .mk "flow_maybe_type" true false "" 17 20
    [.leaf "?" false "" 17 18,
      .mk "flow_maybe_type" true false "" 18 20 [.leaf "?" false "" 18 19, .leaf "type_identifier" true "" 19 20]]

/-- A union of a union and the type. -/
def sampleUnion : Node :=
  .mk "union_type" true false "" 0 20
    [.mk "union_type" true false "" 0 5
        [.leaf "type_identifier" true "" 0 1, .leaf "|" false "" 2 3, .leaf "type_identifier" true "" 4 5],
      .leaf "comment" true "" 6 14, .leaf "|" false "" 15 16, sampleMaybe]

def unionSource : SourceFile := .ofTree none "A | B /* or */ | ??C" .none sampleUnion

/-- The union has three elements, and the last of them admits null once. -/
theorem describeType_sampleUnion : unionSource.describeType (some sampleUnion) =
    .compound "union" "A | B /* or */ | ??C" [.simple "A", .simple "B", .nullable (.simple "C")] := by
  obtain ⟨hunion, -⟩ := (describesByParts unionSource).union sampleUnion rfl
  have hraw : unionSource.text sampleUnion = "A | B /* or */ | ??C" := by decide +kernel
  have hfirst : unionSource.text (.leaf "type_identifier" true "" 0 1) = "A" := by decide +kernel
  have hsecond : unionSource.text (.leaf "type_identifier" true "" 4 5) = "B" := by decide +kernel
  have hthird : unionSource.text (.leaf "type_identifier" true "" 19 20) = "C" := by decide +kernel
  rw [hunion, hraw, ← hfirst, ← hsecond, ← hthird]
  rfl

end SourceFile

end ComponentDocs

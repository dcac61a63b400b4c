import ComponentDocs.Descriptor.PropsType
import ComponentDocs.Proofs.Tree.Order
import Mathlib.Algebra.Order.BigOperators.Group.List
import Mathlib.Algebra.Order.Ring.Nat
import Mathlib.Data.List.Chain
import Mathlib.Data.List.Forall2
import Mathlib.Logic.Relation

/-!
# What types expand to

The properties of a type are those of the object types that it is made of: a name stands for its declaration, and an
intersection for its parts. Names may refer to each other in any way.

* `SourceFile.IsDeclared`: the type that a name is declared with; `findType_eq_some_iff`: it is found;
* `ConsistsOf`, `LeadsTo`: one step from a type to others; `nextTypes`: these types;
* `visitedWithin`: the types on the way, `propSignaturesWithin_eq`: their properties are the ones that are found;
* `StepsWithin`: no more than so many steps follow one another; it can be decided;
* `Expansion`: the property signatures of a type that is expanded to the end;
* **`propSignatures_expand`**: the search ends, finds nothing else, and finds everything behind five steps.
-/

namespace ComponentDocs

open Relation

/-- A property with a name. -/
def Cursor.isSignature (c : Cursor) : Bool := c.kind == "property_signature" && (c.node.child? "name").isSome

namespace SourceFile

variable (src : SourceFile)

/-! ## Declarations -/

/-- The statement declares a type under a name; the declared type fills `field`. -/
def DeclaresName (name : String) (statement : Cursor) (field : String) : Prop :=
  (statement.kind = "type_alias_declaration" ∧ field = "value" ∨
    statement.kind = "interface_declaration" ∧ field = "body") ∧
  ∃ node, statement.node.child? "name" = some node ∧ src.text node = name

/-- The type with which a name is declared at the top level; of several declarations the first counts. -/
def IsDeclared (name : String) (declared : Cursor) : Prop :=
  ∃ before statement after field, src.topLevel = before ++ statement :: after ∧ src.DeclaresName name statement field ∧
    (∀ earlier ∈ before, ∀ field, ¬ src.DeclaresName name earlier field) ∧ statement.child? field = some declared

variable {src} {name : String} {statement declared : Cursor}

theorem fieldIs_iff {node : Node} {field text : String} :
    src.fieldIs node field text = true ↔ ∃ child, node.child? field = some child ∧ src.text child = text := by
  rw [fieldIs, beq_iff_eq, text?, Option.map_eq_some_iff]

theorem declaredType?_eq_some_iff {found : Option Cursor} : src.declaredType? name statement = some found ↔
    ∃ field, src.DeclaresName name statement field ∧ statement.child? field = found := by
  rw [declaredType?]
  constructor
  · intro h
    split_ifs at h with halias hinterface
    · exact ⟨"value", ⟨.inl ⟨halias.1, rfl⟩, fieldIs_iff.mp halias.2⟩, Option.some.inj h⟩
    · exact ⟨"body", ⟨.inr ⟨hinterface.1, rfl⟩, fieldIs_iff.mp hinterface.2⟩, Option.some.inj h⟩
  · rintro ⟨field, ⟨⟨hkind, rfl⟩ | ⟨hkind, rfl⟩, hname⟩, rfl⟩
    · rw [if_pos ⟨hkind, fieldIs_iff.mpr hname⟩]
    · rw [if_neg fun h => absurd (hkind.symm.trans h.1) (by decide), if_pos ⟨hkind, fieldIs_iff.mpr hname⟩]

theorem declaredType?_eq_none_iff :
    src.declaredType? name statement = none ↔ ∀ field, ¬ src.DeclaresName name statement field := by
  rw [Option.eq_none_iff_forall_ne_some]
  constructor
  · exact fun h field hdeclares => h _ (declaredType?_eq_some_iff.mpr ⟨field, hdeclares, rfl⟩)
  · intro h found hfound
    obtain ⟨field, hdeclares, -⟩ := declaredType?_eq_some_iff.mp hfound
    exact h field hdeclares

theorem findType_eq_some_iff : src.findType name = some declared ↔ src.IsDeclared name declared := by
  rw [findType, Option.join_eq_some_iff, List.findSome?_eq_some_iff]
  simp only [declaredType?_eq_some_iff, declaredType?_eq_none_iff]
  constructor
  · rintro ⟨before, statement, after, htop, ⟨field, hdeclares, hchild⟩, hbefore⟩
    exact ⟨before, statement, after, field, htop, hdeclares, hbefore, hchild⟩
  · rintro ⟨before, statement, after, field, htop, hdeclares, hbefore, hchild⟩
    exact ⟨before, statement, after, htop, ⟨field, hdeclares, hchild⟩, hbefore⟩

theorem IsDeclared.mem_walk (h : src.IsDeclared name declared) : declared ∈ src.top.walk := by
  obtain ⟨before, statement, after, field, htop, -, -, hchild⟩ := h
  have hstatement : statement ∈ src.topLevel := htop ▸ List.mem_append_right _ List.mem_cons_self
  exact Cursor.child?_mem_walk (topLevel_subset_walk hstatement) hchild

/-! ## Steps -/

variable (src) in
/-- The types that a type consists of, behind its annotation: a name of the type it is declared with, an intersection of
its parts in order. -/
inductive ConsistsOf : Cursor → List Cursor → Prop
  | name {c type declared : Cursor} {name : Node} (htype : unwrapAnnotation c = some type)
      (hkind : type.kind = "type_identifier" ∨ type.kind = "generic_type") (hname : referenceName? type = some name)
      (hdeclared : src.IsDeclared (src.text name) declared) : ConsistsOf c [declared]
  | intersection {c type : Cursor} (htype : unwrapAnnotation c = some type) (hkind : type.kind = "intersection_type") :
      ConsistsOf c type.parts

variable (src) in
/-- The second type is one that the first consists of. -/
def LeadsTo (c d : Cursor) : Prop := ∃ types, src.ConsistsOf c types ∧ d ∈ types

/-- The type is the second place, an object type or the body of an interface, behind its annotation. -/
def IsObject (c object : Cursor) : Prop :=
  unwrapAnnotation c = some object ∧ (object.kind = "object_type" ∨ object.kind = "interface_body")

variable (src) in
/-- The types that a type consists of, none for a type that is not made of others. -/
def nextTypes (c : Cursor) : List Cursor :=
  match unwrapAnnotation c with
  | none => []
  | some type =>
    if type.kind = "type_identifier" ∨ type.kind = "generic_type" then
      ((referenceName? type).bind fun name => src.findType (src.text name)).toList
    else if type.kind = "intersection_type" then type.parts
    else []

/-- The members of an object type, none for another type. -/
def objectMembers (c : Cursor) : List Cursor :=
  match unwrapAnnotation c with
  | none => []
  | some type => if type.kind = "object_type" ∨ type.kind = "interface_body" then type.parts else []

variable {c d object : Cursor} {types : List Cursor} {depth : ℕ}

theorem ConsistsOf.nextTypes_eq (h : src.ConsistsOf c types) : src.nextTypes c = types := by
  cases h with
  | name htype hkind hname hdeclared =>
    rw [nextTypes, htype]
    dsimp only
    rw [if_pos hkind, hname, Option.bind_some, findType_eq_some_iff.mpr hdeclared]
    rfl
  | intersection htype hkind =>
    rw [nextTypes, htype]
    dsimp only
    rw [if_neg (by rw [hkind]; decide), if_pos hkind]

theorem consistsOf_nextTypes (h : src.nextTypes c ≠ []) : src.ConsistsOf c (src.nextTypes c) := by
  cases htype : unwrapAnnotation c with
  | none => exact absurd (by rw [nextTypes, htype]) h
  | some type =>
    rw [nextTypes, htype] at h ⊢
    dsimp only at h ⊢
    split_ifs at h ⊢ with hname hintersection
    · cases hdeclared : (referenceName? type).bind fun name => src.findType (src.text name) with
      | none => exact absurd (by rw [hdeclared]; rfl) h
      | some declared =>
        obtain ⟨name, hreference, hfound⟩ := Option.bind_eq_some_iff.mp hdeclared
        exact .name htype hname hreference (findType_eq_some_iff.mp hfound)
    · exact .intersection htype hintersection
    · exact absurd rfl h

theorem mem_nextTypes_iff : d ∈ src.nextTypes c ↔ src.LeadsTo c d := by
  constructor
  · exact fun h => ⟨_, consistsOf_nextTypes (List.ne_nil_of_mem h), h⟩
  · rintro ⟨types, htypes, hd⟩
    rwa [htypes.nextTypes_eq]

theorem nextTypes_eq_nil (h : ∀ types, ¬ src.ConsistsOf c types) : src.nextTypes c = [] :=
  not_imp_comm.mp consistsOf_nextTypes (h _)

theorem IsObject.objectMembers_eq (h : IsObject c object) : objectMembers c = object.parts := by
  rw [objectMembers, h.1]
  exact if_pos h.2

theorem exists_isObject_of_mem_objectMembers (h : d ∈ objectMembers c) : ∃ object, IsObject c object ∧ d ∈ object.parts := by
  rw [objectMembers] at h
  split at h
  · exact absurd h List.not_mem_nil
  · next type htype =>
    split_ifs at h with hkind
    · exact ⟨type, ⟨htype, hkind⟩, h⟩
    · exact absurd h List.not_mem_nil

theorem IsObject.not_consistsOf (h : IsObject c object) : ¬ src.ConsistsOf c types := by
  obtain ⟨hobject, hkind⟩ := h
  intro hconsists
  cases hconsists with
  | name htype hname =>
    rw [hobject] at htype
    cases htype
    rcases hkind with hkind | hkind <;> rw [hkind] at hname <;> revert hname <;> decide
  | intersection htype hname =>
    rw [hobject] at htype
    cases htype
    rcases hkind with hkind | hkind <;> rw [hkind] at hname <;> revert hname <;> decide

theorem unwrapAnnotation_mem_walk {type : Cursor} (hc : c ∈ src.top.walk) (h : unwrapAnnotation c = some type) :
    type ∈ src.top.walk := by
  unfold unwrapAnnotation at h
  split_ifs at h
  · exact Cursor.parts_subset_walk hc (List.mem_of_mem_head? h)
  · exact Option.some.inj h ▸ hc

theorem LeadsTo.mem_walk (h : src.LeadsTo c d) (hc : c ∈ src.top.walk) : d ∈ src.top.walk := by
  obtain ⟨types, htypes, hd⟩ := h
  cases htypes with
  | name _ _ _ hdeclared => exact List.mem_singleton.mp hd ▸ hdeclared.mem_walk
  | intersection htype => exact Cursor.parts_subset_walk (unwrapAnnotation_mem_walk hc htype) hd

/-! ## The types on the way -/

variable (src) in
/-- The types that are looked at with at most so many steps, the first type included, each before those it consists of. -/
def visitedWithin : ℕ → Cursor → List Cursor
  | 0, _ => []
  | depth + 1, c => c :: (src.nextTypes c).flatMap (visitedWithin depth)

/-- The properties are found type by type. -/
theorem propSignaturesWithin_succ (depth : ℕ) (c : Cursor) : src.propSignaturesWithin (depth + 1) c =
    (objectMembers c).filterMap src.propSignature? ++ (src.nextTypes c).flatMap (src.propSignaturesWithin depth) := by
  rw [propSignaturesWithin, objectMembers, nextTypes]
  cases unwrapAnnotation c with
  | none => rfl
  | some type =>
    dsimp only
    by_cases hname : type.kind = "type_identifier" ∨ type.kind = "generic_type"
    · rw [if_pos hname, if_pos hname, if_neg (by rcases hname with hname | hname <;> rw [hname] <;> decide)]
      cases (referenceName? type).bind fun name => src.findType (src.text name) with
      | none => rfl
      | some declared => simp
    rw [if_neg hname, if_neg hname]
    by_cases hintersection : type.kind = "intersection_type"
    · rw [if_pos hintersection, if_pos hintersection, if_neg (by rw [hintersection]; decide)]
      rfl
    · rw [if_neg hintersection, if_neg hintersection]
      split_ifs <;> simp

/-- **The properties that are found are those of the types that are looked at.** -/
theorem propSignaturesWithin_eq (depth : ℕ) (c : Cursor) : src.propSignaturesWithin depth c =
    ((src.visitedWithin depth c).flatMap objectMembers).filterMap src.propSignature? := by
  induction depth generalizing c with
  | zero => rfl
  | succ depth ih =>
    rw [propSignaturesWithin_succ, visitedWithin, List.flatMap_cons, List.filterMap_append, List.flatMap_assoc,
      List.filterMap_flatMap]
    congr 1
    exact List.flatMap_congr fun d _ => ih d

theorem reaches_of_mem_visitedWithin (h : d ∈ src.visitedWithin depth c) : ReflTransGen src.LeadsTo c d := by
  induction depth generalizing c with
  | zero => exact absurd h List.not_mem_nil
  | succ depth ih =>
    rcases List.mem_cons.mp h with rfl | h
    · exact .refl
    · obtain ⟨next, hnext, hd⟩ := List.mem_flatMap.mp h
      exact .head (mem_nextTypes_iff.mp hnext) (ih hd)

theorem length_nextTypes_le (hc : c ∈ src.top.walk) : (src.nextTypes c).length ≤ src.root.size := by
  cases htypes : src.nextTypes c with
  | nil => exact Nat.zero_le _
  | cons first rest =>
    have hconsists := consistsOf_nextTypes (htypes ▸ List.cons_ne_nil first rest)
    rw [htypes] at hconsists
    generalize first :: rest = types at hconsists
    cases hconsists with
    | name => exact src.root.size_pos
    | intersection htype =>
      have hle := Cursor.length_namedChildren_le (unwrapAnnotation_mem_walk hc htype)
      refine le_trans ?_ hle
      rw [Cursor.parts, Cursor.namedChildren, List.length_map, List.length_map, Node.namedChildren,
        ← List.countP_eq_length_filter, ← List.countP_eq_length_filter]
      exact List.countP_mono_left fun node _ hpart => (Bool.and_eq_true_iff.mp hpart).1

theorem length_visitedWithin_le (hc : c ∈ src.top.walk) :
    (src.visitedWithin depth c).length ≤ (src.root.size + 1) ^ depth := by
  induction depth generalizing c with
  | zero => exact Nat.zero_le _
  | succ depth ih =>
    have hnext : ((src.nextTypes c).flatMap (src.visitedWithin depth)).length ≤
        (src.nextTypes c).length * (src.root.size + 1) ^ depth := by
      rw [List.length_flatMap]
      simpa using List.sum_le_card_nsmul ((src.nextTypes c).map fun d => (src.visitedWithin depth d).length) _
        (List.forall_mem_map.mpr fun d hd => ih ((mem_nextTypes_iff.mp hd).mem_walk hc))
    have hlength := Nat.mul_le_mul_right ((src.root.size + 1) ^ depth) (length_nextTypes_le hc)
    have hpos : 0 < (src.root.size + 1) ^ depth := Nat.pow_pos (Nat.succ_pos _)
    rw [visitedWithin, List.length_cons, Nat.pow_succ, Nat.mul_comm _ (src.root.size + 1), Nat.succ_mul]
    omega

/-! ## Property signatures -/

variable (src) in
/-- What is said of a property: its name without quotes, its type node, that it has to be given unless there is a question
mark, and its documentation. -/
structure Describes (member : Cursor) (signature : PropSignature) : Prop where
  name_eq : ∃ node, member.node.child? "name" = some node ∧ signature.name = Text.unquote (src.text node)
  type_eq : signature.type = member.child? "type"
  required_iff : signature.required = true ↔ ∀ child ∈ member.node.children, child.kind ≠ "?"
  docblock_eq : signature.docblock = src.docblockBefore member

theorem Describes.of_propSignature? {member : Cursor} {signature : PropSignature}
    (h : src.propSignature? member = some signature) : src.Describes member signature := by
  rw [propSignature?] at h
  split_ifs at h
  obtain ⟨node, hnode, rfl⟩ := Option.map_eq_some_iff.mp h
  refine ⟨⟨node, hnode, rfl⟩, rfl, ?_, rfl⟩
  simp [Cursor.hasToken]

theorem isSome_propSignature? (src : SourceFile) (member : Cursor) :
    (src.propSignature? member).isSome = member.isSignature := by
  rw [propSignature?, Cursor.isSignature]
  by_cases hkind : member.kind = "property_signature" <;> simp [hkind]

theorem forall₂_describes (src : SourceFile) (members : List Cursor) :
    List.Forall₂ src.Describes (members.filter Cursor.isSignature) (members.filterMap src.propSignature?) := by
  induction members with
  | nil => exact .nil
  | cons member members ih =>
    rw [List.filter_cons, List.filterMap_cons, ← isSome_propSignature? src]
    cases h : src.propSignature? member with
    | none => exact ih
    | some signature => exact .cons (.of_propSignature? h) ih

/-! ## Full expansions -/

variable (src) in
/-- The property signatures of some types that are expanded to the end, in the order of the source: those of an object type,
and in the place of a name or an intersection those of the types it consists of. -/
inductive Expansion : List Cursor → List Cursor → Prop
  | nil : Expansion [] []
  | object {c object : Cursor} {rest members : List Cursor} (hobject : IsObject c object) (h : Expansion rest members) :
      Expansion (c :: rest) (object.parts.filter Cursor.isSignature ++ members)
  | step {c : Cursor} {types inner rest members : List Cursor} (hstep : src.ConsistsOf c types)
      (hinner : Expansion types inner) (h : Expansion rest members) : Expansion (c :: rest) (inner ++ members)
  | other {c : Cursor} {rest members : List Cursor} (hobject : ∀ object, ¬ IsObject c object)
      (hstep : ∀ types, ¬ src.ConsistsOf c types) (h : Expansion rest members) : Expansion (c :: rest) members

theorem objectMembers_eq_nil (h : ∀ object, ¬ IsObject c object) : objectMembers c = [] := by
  refine List.eq_nil_iff_forall_not_mem.mpr fun member hmember => ?_
  obtain ⟨object, hobject, -⟩ := exists_isObject_of_mem_objectMembers hmember
  exact h object hobject

/-- A type is expanded if the types that it consists of are. -/
theorem Expansion.of_nextTypes {members : List Cursor} (h : src.Expansion (src.nextTypes c) members) :
    src.Expansion [c] ((objectMembers c).filter Cursor.isSignature ++ members) := by
  by_cases hobject : ∃ object, IsObject c object
  · obtain ⟨object, hobject⟩ := hobject
    rw [nextTypes_eq_nil fun types => hobject.not_consistsOf] at h
    cases h
    rw [hobject.objectMembers_eq]
    exact .object hobject .nil
  have hnone : ∀ object, ¬ IsObject c object := not_exists.mp hobject
  rw [objectMembers_eq_nil hnone, List.filter_nil, List.nil_append]
  by_cases hstep : ∃ types, src.ConsistsOf c types
  · obtain ⟨types, hstep⟩ := hstep
    rw [hstep.nextTypes_eq] at h
    rw [← List.append_nil members]
    exact .step hstep h .nil
  · rw [nextTypes_eq_nil (not_exists.mp hstep)] at h
    cases h
    exact .other hnone (not_exists.mp hstep) .nil

/-- Types have one expansion. -/
theorem Expansion.eq {members others : List Cursor} (h : src.Expansion types members) (hothers : src.Expansion types others) :
    others = members := by
  induction h generalizing others with
  | nil => cases hothers; rfl
  | object hobject _ ih =>
    cases hothers with
    | object hobject' hothers =>
      cases hobject.1.symm.trans hobject'.1
      rw [ih hothers]
    | step hstep => exact absurd hstep hobject.not_consistsOf
    | other hnone => exact absurd hobject (hnone _)
  | step hstep _ _ ihinner ih =>
    cases hothers with
    | object hobject => exact absurd hstep hobject.not_consistsOf
    | step hstep' hinner hothers =>
      obtain rfl : _ = _ := hstep.nextTypes_eq.symm.trans hstep'.nextTypes_eq
      rw [ihinner hinner, ih hothers]
    | other _ hnone => exact absurd hstep (hnone _)
  | other hobject hnone _ ih =>
    cases hothers with
    | object hobject' => exact absurd hobject' (hobject _)
    | step hstep => exact absurd hstep (hnone _)
    | other _ _ hothers => exact ih hothers

theorem Expansion.of_forall {members : Cursor → List Cursor} (h : ∀ d ∈ types, src.Expansion [d] (members d)) :
    src.Expansion types (types.flatMap members) := by
  induction types with
  | nil => exact .nil
  | cons d types ih =>
    have hrest := ih fun e he => h e (List.mem_cons_of_mem _ he)
    have hfirst := h d List.mem_cons_self
    rw [List.flatMap_cons]
    generalize members d = found at hfirst
    cases hfirst with
    | object hobject hnil =>
      cases hnil
      rw [List.append_nil]
      exact .object hobject hrest
    | step hstep hinner hnil =>
      cases hnil
      rw [List.append_nil]
      exact .step hstep hinner hrest
    | other hobject hnone hnil =>
      cases hnil
      exact .other hobject hnone hrest

/-! ## Enough steps -/

variable (src) in
/-- No more than so many steps from a type follow one another. -/
def StepsWithin (depth : ℕ) (c : Cursor) : Prop :=
  ∀ chain, List.IsChain src.LeadsTo (c :: chain) → chain.length ≤ depth

theorem stepsWithin_zero_iff : src.StepsWithin 0 c ↔ src.nextTypes c = [] := by
  rw [List.eq_nil_iff_forall_not_mem]
  constructor
  · intro h d hd
    exact absurd (h [d] (List.isChain_pair.mpr (mem_nextTypes_iff.mp hd))) (Nat.not_succ_le_zero 0)
  · intro h chain hchain
    cases chain with
    | nil => exact Nat.le_refl 0
    | cons d chain => exact absurd (mem_nextTypes_iff.mpr (List.isChain_cons_cons.mp hchain).1) (h d)

theorem stepsWithin_succ_iff : src.StepsWithin (depth + 1) c ↔ ∀ d ∈ src.nextTypes c, src.StepsWithin depth d := by
  constructor
  · intro h d hd chain hchain
    exact Nat.le_of_succ_le_succ (h (d :: chain) (.cons_cons (mem_nextTypes_iff.mp hd) hchain))
  · intro h chain hchain
    cases chain with
    | nil => exact Nat.zero_le _
    | cons d chain =>
      obtain ⟨hstep, hchain⟩ := List.isChain_cons_cons.mp hchain
      exact Nat.succ_le_succ (h d (mem_nextTypes_iff.mpr hstep) chain hchain)

/-- Whether few enough steps follow one another can be decided. -/
instance decidableStepsWithin (src : SourceFile) : (depth : ℕ) → DecidablePred (src.StepsWithin depth)
  | 0, _ => decidable_of_iff (src.nextTypes _ = []) stepsWithin_zero_iff.symm
  | depth + 1, c =>
    have := decidableStepsWithin src depth
    decidable_of_iff (∀ d ∈ src.nextTypes c, src.StepsWithin depth d) stepsWithin_succ_iff.symm

/-- **A type is expanded to the end if one more type is looked at than steps follow one another.** -/
theorem expansion_visitedWithin (h : src.StepsWithin depth c) : src.Expansion [c]
    (((src.visitedWithin (depth + 1) c).flatMap objectMembers).filter Cursor.isSignature) := by
  induction depth generalizing c with
  | zero =>
    rw [visitedWithin, stepsWithin_zero_iff.mp h]
    have hnext : src.Expansion (src.nextTypes c) [] := by
      rw [stepsWithin_zero_iff.mp h]
      exact .nil
    simpa using hnext.of_nextTypes
  | succ depth ih =>
    have hnext := Expansion.of_forall fun d hd => ih (stepsWithin_succ_iff.mp h d hd)
    rw [visitedWithin, List.flatMap_cons, List.filter_append, List.flatMap_assoc, List.filter_flatMap]
    exact hnext.of_nextTypes

/-- **The search for the properties of a type ends, however names refer to each other**: it looks at no more types than the
size of the tree allows, all of them types that the given one leads to, and finds the property signatures of these that are
object types. **It finds those of the full expansion in order** if at most five steps from the type follow one another. -/
theorem propSignatures_expand {c : Cursor} (hc : c ∈ src.top.walk) :
    ((src.visitedWithin typeDepth c).length ≤ (src.root.size + 1) ^ typeDepth ∧
      (∀ d ∈ src.visitedWithin typeDepth c, ReflTransGen src.LeadsTo c d) ∧
      src.propSignatures c = ((src.visitedWithin typeDepth c).flatMap objectMembers).filterMap src.propSignature?) ∧
    (∀ signature ∈ src.propSignatures c, ∃ d object member, ReflTransGen src.LeadsTo c d ∧ IsObject d object ∧
      member ∈ object.parts ∧ member.isSignature = true ∧ src.Describes member signature) ∧
    (src.StepsWithin 5 c → ∃ members, (∀ others, src.Expansion [c] others ↔ others = members) ∧
      List.Forall₂ src.Describes members (src.propSignatures c)) := by
  have hfound : src.propSignatures c =
      ((src.visitedWithin typeDepth c).flatMap objectMembers).filterMap src.propSignature? := propSignaturesWithin_eq _ c
  refine ⟨⟨length_visitedWithin_le hc, fun d => reaches_of_mem_visitedWithin, hfound⟩, fun signature hsignature => ?_,
    fun hsteps => ?_⟩
  · rw [hfound] at hsignature
    obtain ⟨member, hmember, hdescribed⟩ := List.mem_filterMap.mp hsignature
    obtain ⟨d, hd, hmember⟩ := List.mem_flatMap.mp hmember
    obtain ⟨object, hobject, hpart⟩ := exists_isObject_of_mem_objectMembers hmember
    refine ⟨d, object, member, reaches_of_mem_visitedWithin hd, hobject, hpart, ?_, .of_propSignature? hdescribed⟩
    rw [← isSome_propSignature? src, hdescribed]
    rfl
  · have hexpansion := expansion_visitedWithin hsteps
    refine ⟨_, fun others => ⟨fun h => hexpansion.eq h, fun h => h ▸ hexpansion⟩, ?_⟩
    rw [hfound]
    exact forall₂_describes src _

theorem getD_findType_mem_walk (src : SourceFile) (name : String) : (src.findType name).getD src.top ∈ src.top.walk := by
  cases h : src.findType name with
  | none => exact Cursor.self_mem_walk _
  | some declared => exact (findType_eq_some_iff.mp h).mem_walk

/-- A source with an alias `P` for an intersection of `part` with an object type, and an interface `A`. -/
def intersectionSource (part : String) : SourceFile :=
  .ofTree none ("type P = " ++ part ++ " & \x7b'b'?: N\x7d\ninterface A \x7b/** c */ a: S\x7d\n") .none
    (.mk "program" true false "" 0 51
      [.mk "type_alias_declaration" true false "" 0 22
        [.leaf "type_identifier" true "name" 5 6,
          .mk "intersection_type" true false "value" 9 22
            [.leaf "type_identifier" true "" 9 10, .leaf "&" false "" 11 12,
              .mk "object_type" true false "" 13 22
                [.mk "property_signature" true false "" 14 21
                  [.leaf "string" true "name" 14 17, .leaf "?" false "" 17 18,
                    .mk "type_annotation" true false "type" 18 21 [.leaf "type_identifier" true "" 20 21]]]]],
        .mk "interface_declaration" true false "" 23 50
          [.leaf "type_identifier" true "name" 33 34,
            .mk "interface_body" true false "body" 35 50
              [.leaf "comment" true "" 36 44,
                .mk "property_signature" true false "" 45 49
                  [.leaf "property_identifier" true "name" 45 46,
                    .mk "type_annotation" true false "type" 46 49 [.leaf "type_identifier" true "" 48 49]]]]])

/-- The intersection. -/
def intersectionPlace (part : String) : Cursor := ((intersectionSource part).findType "P").getD (intersectionSource part).top

theorem propSignatures_intersectionSource :
    intersectionPlace "A" ∈ (intersectionSource "A").top.walk ∧ (intersectionSource "A").StepsWithin 5 (intersectionPlace "A") ∧
    ((intersectionSource "A").propSignatures (intersectionPlace "A")).map (fun s => (s.name, s.required, s.docblock)) =
      [("a", true, some "c"), ("b", false, none)] ∧
    ∃ members, (intersectionSource "A").Expansion [intersectionPlace "A"] members ∧ List.Forall₂
      (intersectionSource "A").Describes members ((intersectionSource "A").propSignatures (intersectionPlace "A")) := by
  have hplace : intersectionPlace "A" ∈ (intersectionSource "A").top.walk := getD_findType_mem_walk _ _
  have hsteps : (intersectionSource "A").StepsWithin 5 (intersectionPlace "A") := by decide +kernel
  obtain ⟨-, -, hexpand⟩ := propSignatures_expand hplace
  obtain ⟨members, hmembers, hdescribed⟩ := hexpand hsteps
  exact ⟨hplace, hsteps, by decide +kernel, members, (hmembers members).mpr rfl, hdescribed⟩

/-- An intersection with its own name is looked at until the steps are used up. -/
example : ((intersectionSource "P").propSignatures (intersectionPlace "P")).map (·.name) = ["b", "b", "b"] := by
  decide +kernel

end SourceFile

end ComponentDocs

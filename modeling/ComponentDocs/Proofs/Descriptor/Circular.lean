import ComponentDocs.Descriptor.PropType
import ComponentDocs.Proofs.Traversal
import ComponentDocs.Proofs.Tree.Walk
import Mathlib.Data.List.Chain
import Mathlib.Data.List.Duplicate
import Mathlib.Data.List.Perm.Subperm
import Mathlib.Logic.Relation

/-!
# Prop types that need themselves

The type behind an expression is described from the types of inner expressions, and an argument that is a name
stands for the value of a variable, which may hold the expression that is being described.

* `innerTypes`, `Needs`: the expressions whose types the type of an expression is made of;
* `describeStep`: the type of an expression from those of its inner expressions;
* `describeWithin_fails_iff`: a description fails if it is shorter than some chain of inner expressions;
* `leadsToCircle_of_isChain`: a chain that is longer than the tree comes back to an expression;
* `describe_eq_describeStep`: the type of an expression follows from those of its inner expressions at any depth;
* **`describe_eq_and_ok_iff`**: a type is described exactly if it does not lead to one that needs itself.
-/

namespace ComponentDocs.PropType

open Relation

variable (src : SourceFile)

/-! ## Inner expressions -/

/-- The value of a keyed value, without the mark of a required one. -/
def pairValue (pair : Cursor) : Cursor := (unwrapRequired src ((pair.child? "value").getD pair)).1

/-- The expressions whose types a call of `name` needs. -/
def callTypes (name : String) (argument : Cursor) : List Cursor :=
  if name = "oneOf" then []
  else if name = "oneOfType" then (if argument.kind = "array" then argument.parts else [])
  else if name = "arrayOf" ∨ name = "objectOf" then [argument]
  else if name = "instanceOf" then []
  else if argument.kind = "object" then
    (argument.namedChildren.filter (·.kind == "pair")).map (pairValue src)
  else []

/-- The expressions whose types the type of an expression needs. -/
def innerTypes (c : Cursor) : List Cursor :=
  let inner := (unwrapRequired src c).1
  match (typeName? src inner.node).filter simpleTypes.contains with
  | some _ => []
  | none =>
    match typeCall? src inner with
    | some (name, argument) => callTypes src name argument
    | none => []

/-- The type of the second expression is needed for that of the first. -/
def Needs (c d : Cursor) : Prop := d ∈ innerTypes src c

/-- The type that an expression declares, where `element` describes the types that it needs. -/
def describeStep (element : Cursor → Except Fault PropType) (c : Cursor) : Except Fault PropType :=
  let inner := (unwrapRequired src c).1
  match (typeName? src inner.node).filter simpleTypes.contains with
  | some name => .ok (.simple name)
  | none =>
    match typeCall? src inner with
    | some (name, argument) => describeCall src element name argument
    | none => .ok (.custom (src.text inner.node))

theorem describeWithin_succ (depth : ℕ) (c : Cursor) :
    describeWithin src (depth + 1) c = describeStep src (describeWithin src depth) c := rfl

/-! ## Places of inner expressions -/

section

variable {src} {c d : Cursor}

theorem unwrapRequired_mem_walk (hc : c ∈ src.top.walk) : (unwrapRequired src c).1 ∈ src.top.walk := by
  rw [unwrapRequired]
  split
  · exact Cursor.getD_child?_mem_walk hc _
  · exact hc

theorem callTypes_subset_walk {name : String} (hc : c ∈ src.top.walk) (hd : d ∈ callTypes src name c) :
    d ∈ src.top.walk := by
  rw [callTypes] at hd
  split_ifs at hd
  · exact absurd hd List.not_mem_nil
  · exact Cursor.parts_subset_walk hc hd
  · exact absurd hd List.not_mem_nil
  · rwa [List.mem_singleton.mp hd]
  · exact absurd hd List.not_mem_nil
  · obtain ⟨pair, hpair, rfl⟩ := List.mem_map.mp hd
    have hmem : pair ∈ src.top.walk := Cursor.namedChildren_subset_walk hc (List.mem_filter.mp hpair).1
    exact unwrapRequired_mem_walk (Cursor.getD_child?_mem_walk hmem _)
  · exact absurd hd List.not_mem_nil

theorem typeCall?_mem_walk {name : String} (hc : c ∈ src.top.walk) (h : typeCall? src c = some (name, d)) :
    d ∈ src.top.walk := by
  rw [typeCall?] at h
  split at h
  · obtain ⟨callee, -, h⟩ := Option.bind_eq_some_iff.mp h
    obtain ⟨argument, hargument, h⟩ := Option.bind_eq_some_iff.mp h
    split at h
    · cases h
      apply SourceFile.resolve_mem_walk
      obtain ⟨arguments, harguments, hhead⟩ := Option.bind_eq_some_iff.mp hargument
      exact Cursor.parts_subset_walk (Cursor.child?_mem_walk hc harguments) (List.mem_of_mem_head? hhead)
    · cases h
  · cases h

theorem Needs.mem_walk (h : Needs src c d) (hc : c ∈ src.top.walk) : d ∈ src.top.walk := by
  rw [Needs, innerTypes] at h
  split at h
  · exact absurd h List.not_mem_nil
  · split at h
    · next hcall => exact callTypes_subset_walk (typeCall?_mem_walk (unwrapRequired_mem_walk hc) hcall) h
    · exact absurd h List.not_mem_nil

end

/-! ## One step -/

section

variable {src} {f g : Cursor → Except Fault PropType} {c : Cursor}

variable (src) in
/-- The field that a keyed value with a value of some type declares. -/
def pairField (pair : Cursor) (type : PropType) : ShapeField :=
  .mk (pairKey src pair) type (unwrapRequired src ((pair.child? "value").getD pair)).2 (src.docblockBefore pair)

theorem describeCall_eq_map (name : String) (argument : Cursor) : ∃ build : List PropType → PropType,
    ∀ element, describeCall src element name argument = build <$> (callTypes src name argument).mapM element := by
  unfold describeCall callTypes
  split_ifs
  · exact ⟨fun _ => .enum (argument.parts.map (enumMember src)), fun element => rfl⟩
  · exact ⟨fun _ => .computed "enum" (src.text argument.node), fun element => rfl⟩
  · exact ⟨.union, fun element => rfl⟩
  · exact ⟨fun _ => .computed "union" (src.text argument.node), fun element => rfl⟩
  · refine ⟨fun types => .collection name (types.headD (.simple "")), fun element => ?_⟩
    rw [List.mapM_cons]
    cases element argument <;> rfl
  · exact ⟨fun _ => .instanceOf (src.text argument.node), fun element => rfl⟩
  · refine ⟨fun types => .shape name (ShapeField.dedupe (List.zipWith (pairField src)
      (argument.namedChildren.filter (·.kind == "pair")) types)), fun element => ?_⟩
    change (List.mapM _ (argument.namedChildren.filter (·.kind == "pair")) >>=
      fun fields => pure (PropType.shape name (ShapeField.dedupe fields))) = _
    rw [mapM_zipWith (k := pairField src) (h := pairValue src) (g := element)]
    · cases ((argument.namedChildren.filter (·.kind == "pair")).map (pairValue src)).mapM element <;> rfl
    · intro pair _
      unfold pairValue pairField
      dsimp only
      cases element (unwrapRequired src ((pair.child? "value").getD pair)).1 <;> rfl
  · exact ⟨fun _ => .computed name (src.text argument.node), fun element => rfl⟩

variable (src) in
theorem describeStep_eq_map (c : Cursor) : ∃ build : List PropType → PropType,
    ∀ element, describeStep src element c = build <$> (innerTypes src c).mapM element := by
  unfold describeStep innerTypes
  dsimp only
  split
  · next name _ => exact ⟨fun _ => .simple name, fun element => rfl⟩
  · split
    · next name argument _ => exact describeCall_eq_map name argument
    · exact ⟨fun _ => .custom (src.text (unwrapRequired src c).1.node), fun element => rfl⟩

theorem describeStep_congr (h : ∀ d ∈ innerTypes src c, f d = g d) : describeStep src f c = describeStep src g c := by
  obtain ⟨build, hbuild⟩ := describeStep_eq_map src c
  rw [hbuild, hbuild, mapM_congr h]

theorem describeStep_ok_iff : (∃ t, describeStep src f c = .ok t) ↔ ∀ d ∈ innerTypes src c, ∃ t, f d = .ok t := by
  obtain ⟨build, hbuild⟩ := describeStep_eq_map src c
  rw [hbuild, ← exists_mapM_ok_iff]
  cases (innerTypes src c).mapM f <;> simp [Functor.map, Except.map]

theorem exists_error_of_describeStep {fault : Fault} (h : describeStep src f c = .error fault) :
    ∃ d ∈ innerTypes src c, f d = .error fault := by
  obtain ⟨build, hbuild⟩ := describeStep_eq_map src c
  rw [hbuild] at h
  apply exists_error_of_mapM
  cases hinner : (innerTypes src c).mapM f with
  | ok types =>
    rw [hinner] at h
    cases h
  | error e =>
    rw [hinner] at h
    cases h
    rfl

end

/-! ## Chains of inner expressions -/

section

variable {src} {c d : Cursor} {depth : ℕ}

theorem fault_of_describeWithin {fault : Fault} (h : describeWithin src depth c = .error fault) :
    fault = .circularPropType := by
  induction depth generalizing c with
  | zero =>
    cases h
    rfl
  | succ depth ih =>
    obtain ⟨d, -, hd⟩ := exists_error_of_describeStep h
    exact ih hd

theorem describeWithin_mono {t : PropType} (h : describeWithin src depth c = .ok t) :
    describeWithin src (depth + 1) c = .ok t := by
  induction depth generalizing c t with
  | zero => cases h
  | succ depth ih =>
    rw [describeWithin_succ] at h ⊢
    have hall := describeStep_ok_iff.mp ⟨t, h⟩
    rw [← h]
    apply describeStep_congr
    intro d hd
    obtain ⟨u, hu⟩ := hall d hd
    rw [hu, ih hu]

/-- **A description fails if it is shorter than some chain of inner expressions.** -/
theorem describeWithin_fails_iff : (¬ ∃ t, describeWithin src depth c = .ok t) ↔
    ∃ chain : List Cursor, chain.length = depth ∧ List.IsChain (Needs src) (c :: chain) := by
  induction depth generalizing c with
  | zero =>
    constructor
    · exact fun _ => ⟨[], rfl, List.isChain_singleton c⟩
    · rintro - ⟨t, ht⟩
      cases ht
  | succ depth ih =>
    rw [describeWithin_succ, describeStep_ok_iff]
    constructor
    · intro h
      obtain ⟨d, hd, hfails⟩ : ∃ d ∈ innerTypes src c, ¬ ∃ t, describeWithin src depth d = .ok t := by
        by_contra hnone
        exact h fun d hd => not_not.mp fun hfails => hnone ⟨d, hd, hfails⟩
      obtain ⟨chain, hlength, hchain⟩ := ih.mp hfails
      exact ⟨d :: chain, by simp [hlength], List.isChain_cons_cons.mpr ⟨hd, hchain⟩⟩
    · rintro ⟨chain, hlength, hchain⟩ hall
      cases chain with
      | nil => simp at hlength
      | cons d chain =>
        obtain ⟨hd, hchain⟩ := List.isChain_cons_cons.mp hchain
        exact ih.mpr ⟨chain, by simpa using hlength, hchain⟩ (hall d hd)

variable (src) in
/-- The type of the expression leads to a type that needs itself. -/
def LeadsToCircle (c : Cursor) : Prop := ∃ d, ReflTransGen (Needs src) c d ∧ TransGen (Needs src) d d

theorem LeadsToCircle.exists_needs (h : LeadsToCircle src c) : ∃ d, Needs src c d ∧ LeadsToCircle src d := by
  obtain ⟨e, hreach, hcircle⟩ := h
  rcases ReflTransGen.cases_head hreach with rfl | ⟨d, hd, hreach⟩
  · obtain ⟨d, hd, hback⟩ := TransGen.head'_iff.mp hcircle
    exact ⟨d, hd, c, hback, hcircle⟩
  · exact ⟨d, hd, e, hreach, hcircle⟩

theorem LeadsToCircle.exists_chain (h : LeadsToCircle src c) (depth : ℕ) :
    ∃ chain : List Cursor, chain.length = depth ∧ List.IsChain (Needs src) (c :: chain) := by
  induction depth generalizing c with
  | zero => exact ⟨[], rfl, List.isChain_singleton c⟩
  | succ depth ih =>
    obtain ⟨d, hd, hcircle⟩ := h.exists_needs
    obtain ⟨chain, hlength, hchain⟩ := ih hcircle
    exact ⟨d :: chain, by simp [hlength], List.isChain_cons_cons.mpr ⟨hd, hchain⟩⟩

theorem mem_walk_of_isChain {chain : List Cursor} (hc : c ∈ src.top.walk)
    (h : List.IsChain (Needs src) (c :: chain)) : c :: chain ⊆ src.top.walk := by
  induction chain generalizing c with
  | nil => simpa using hc
  | cons d chain ih =>
    obtain ⟨hd, hchain⟩ := List.isChain_cons_cons.mp h
    exact List.cons_subset.mpr ⟨hc, ih (hd.mem_walk hc) hchain⟩

/-- **A chain that is longer than the tree comes back to an expression.** -/
theorem leadsToCircle_of_isChain {chain : List Cursor} (hc : c ∈ src.top.walk)
    (h : List.IsChain (Needs src) (c :: chain)) (hlength : src.root.size ≤ chain.length) : LeadsToCircle src c := by
  have hsize : src.top.walk.length = src.root.size := Cursor.length_walk src.top
  have hdup : ¬ (c :: chain).Nodup := by
    intro hnodup
    have hle := (hnodup.subperm (mem_walk_of_isChain hc h)).length_le
    rw [List.length_cons] at hle
    omega
  obtain ⟨d, hd⟩ := List.exists_duplicate_iff_not_nodup.mpr hdup
  have htrans : List.IsChain (TransGen (Needs src)) (c :: chain) := h.imp fun _ _ => TransGen.single
  have hcircle : TransGen (Needs src) d d := by
    have hpair := htrans.pairwise.sublist (List.duplicate_iff_sublist.mp hd)
    simpa using hpair
  refine ⟨d, ?_, hcircle⟩
  rcases List.mem_cons.mp hd.mem with rfl | hmem
  · exact ReflTransGen.refl
  · exact ((List.pairwise_cons.mp htrans.pairwise).1 d hmem).to_reflTransGen

/-- A description of some depth that is not below the size of the tree fails just at circles. -/
theorem describeWithin_ok_iff (hc : c ∈ src.top.walk) (hdepth : src.root.size ≤ depth) :
    (∃ t, describeWithin src depth c = .ok t) ↔ ¬ LeadsToCircle src c := by
  rw [← not_iff_not, not_not, describeWithin_fails_iff]
  constructor
  · rintro ⟨chain, rfl, hchain⟩
    exact leadsToCircle_of_isChain hc hchain hdepth
  · exact fun h => h.exists_chain depth

theorem describeWithin_stable (hc : c ∈ src.top.walk) (hdepth : src.root.size ≤ depth) :
    describeWithin src (depth + 1) c = describeWithin src depth c := by
  cases h : describeWithin src depth c with
  | ok t => exact describeWithin_mono h
  | error fault =>
    have hcircle : ¬ ∃ t, describeWithin src (depth + 1) c = .ok t := by
      rw [describeWithin_ok_iff hc (by omega), ← describeWithin_ok_iff hc hdepth, h]
      rintro ⟨t, ht⟩
      cases ht
    rw [fault_of_describeWithin h]
    cases hnext : describeWithin src (depth + 1) c with
    | ok t => exact absurd ⟨t, hnext⟩ hcircle
    | error other => rw [fault_of_describeWithin hnext]

/-- The type that an expression declares follows from the types that it needs. -/
theorem describe_eq_describeStep (hc : c ∈ src.top.walk) : describe src c = describeStep src (describe src) c := by
  refine describeStep_congr fun d hd => ?_
  have hmem : d ∈ src.top.walk := Needs.mem_walk hd hc
  exact (describeWithin_stable hmem (Nat.le_refl _)).symm

end

/-- **The type that an expression declares follows from the types that it needs; it is described exactly if it
does not lead to a type that needs itself**, and is reported as circular otherwise. -/
theorem describe_eq_and_ok_iff {c : Cursor} (hc : c ∈ src.top.walk) :
    describe src c = describeStep src (describe src) c ∧
      ((∃ t, describe src c = .ok t) ↔
        ¬ ∃ d, ReflTransGen (Needs src) c d ∧ TransGen (Needs src) d d) ∧
      ∀ fault, describe src c = .error fault → fault = .circularPropType :=
  ⟨describe_eq_describeStep hc, describeWithin_ok_iff hc (Nat.le_succ _), fun _ => fault_of_describeWithin⟩

/-! ## Two variables -/

/-- The tree of `const x = PropTypes.arrayOf(y)` from some offset on, for names of one letter. -/
def arrayOfTree (start : ℕ) : Node :=
  let leaf (kind : String) (named : Bool) (field : String) (first stop : ℕ) : Node :=
    .mk kind named false field (start + first) (start + stop) []
  let callee : Node := .mk "member_expression" true false "function" (start + 10) (start + 27)
    [leaf "identifier" true "object" 10 19, leaf "." false "" 19 20, leaf "property_identifier" true "property" 20 27]
  let arguments : Node := .mk "arguments" true false "arguments" (start + 27) (start + 30)
    [leaf "(" false "" 27 28, leaf "identifier" true "" 28 29, leaf ")" false "" 29 30]
  let call : Node := .mk "call_expression" true false "value" (start + 10) (start + 30) [callee, arguments]
  let declarator : Node := .mk "variable_declarator" true false "" (start + 6) (start + 30)
    [leaf "identifier" true "name" 6 7, leaf "=" false "" 8 9, call]
  .mk "lexical_declaration" true false "" start (start + 30) [leaf "const" false "kind" 0 5, declarator]

/-- A source of two variables, where the first is an array of the second and that an array of something named. -/
def arraysSource (name : String) : SourceFile :=
  .ofTree (some "p.js") ("const a = PropTypes.arrayOf(b)\nconst b = PropTypes.arrayOf(" ++ name ++ ")\n") .none
    (.mk "program" true false "" 0 62 [arrayOfTree 0, arrayOfTree 31])

/-- The value of the first variable. -/
def firstArray (name : String) : Cursor := ((arraysSource name).findVariable "a").getD (arraysSource name).top

theorem firstArray_mem_walk (name : String) : firstArray name ∈ (arraysSource name).top.walk := by
  unfold firstArray
  cases h : (arraysSource name).findVariable "a" with
  | none => exact Cursor.self_mem_walk _
  | some value => exact SourceFile.findVariable_mem_walk h

theorem describe_arrays_of_unknown : firstArray "c" ∈ (arraysSource "c").top.walk ∧
    (∃ t, describe (arraysSource "c") (firstArray "c") = .ok t) ∧
    ¬ ∃ d, ReflTransGen (Needs (arraysSource "c")) (firstArray "c") d ∧ TransGen (Needs (arraysSource "c")) d d := by
  have hok : ∃ t, describe (arraysSource "c") (firstArray "c") = .ok t := by
    have hbool : (describe (arraysSource "c") (firstArray "c")).isOk = true := by decide +kernel
    cases h : describe (arraysSource "c") (firstArray "c") with
    | ok t => exact ⟨t, rfl⟩
    | error fault => simp [h, Except.isOk, Except.toBool] at hbool
  have hmem := firstArray_mem_walk "c"
  exact ⟨hmem, hok, (describe_eq_and_ok_iff (arraysSource "c") hmem).2.1.mp hok⟩

/-- Arrays of each other have no description. -/
theorem describe_arrays_of_each_other : firstArray "a" ∈ (arraysSource "a").top.walk ∧
    describe (arraysSource "a") (firstArray "a") = .error .circularPropType := by
  refine ⟨firstArray_mem_walk "a", ?_⟩
  have hbool : (describe (arraysSource "a") (firstArray "a")).isOk = false := by decide +kernel
  cases h : describe (arraysSource "a") (firstArray "a") with
  | ok t => simp [h, Except.isOk, Except.toBool] at hbool
  | error fault => rw [fault_of_describeWithin h]

end ComponentDocs.PropType

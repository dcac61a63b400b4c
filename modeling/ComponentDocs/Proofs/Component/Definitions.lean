import ComponentDocs.Proofs.Component.Bound
import Mathlib.Data.List.Forall2

/-!
# The definitions of a source

Every component that is bound at the top level is found once, in the order of the tree.

* `Defines`: a definition is that of a node;
* `dedupe_eq_self`: definitions with different bytes are all kept;
* `pairwise_range_definition?`: the definitions of a tree have different bytes;
* **`definitionsOf_complete`**: the definitions of a source are those of its bound candidates, one for each and in
  the order of the tree, and none of these candidates is above another one.
-/

namespace ComponentDocs

/-! ## Definitions of nodes -/

/-- The definition is that of the node: the class or the function there, or the object literal of the call
there. -/
def Defines (src : SourceFile) (c : Cursor) (definition : Definition) : Prop :=
  (definition.kind = .byClass ∧ c.kind ∈ classKinds ∧ isComponentClass src c.node = true ∧ definition.place = c) ∨
    (definition.kind = .byFunction ∧ c.kind ∈ functionKinds ∧ returnsMarkup src c = true ∧ definition.place = c) ∨
    (definition.kind = .bySpecification ∧ specOfCall? src c = some definition.place)

variable {src : SourceFile} {exports : List String} {c : Cursor} {definition : Definition}

theorem defines_of_definition? (h : definition? src exports c = some definition) : Defines src c definition := by
  unfold definition? at h
  simp only [Option.bind_eq_bind, Option.bind_eq_some_iff, Option.pure_def, Option.some.injEq] at h
  obtain ⟨candidate, hcandidate, anchor, -, rfl⟩ := h
  obtain ⟨-, hkinds⟩ := candidate?_eq_some hcandidate
  exact hkinds

theorem specOfCall?_mem_walk {spec : Cursor} (h : specOfCall? src c = some spec) :
    spec ∈ c.walk ∧ spec.kind = "object" := by
  unfold specOfCall? at h
  split_ifs at h
  · obtain ⟨hfirst, hobject⟩ := Option.filter_eq_some_iff.mp h
    obtain ⟨arguments, harguments, hhead⟩ := Option.bind_eq_some_iff.mp hfirst
    have hmem := Cursor.child?_mem_walk (Cursor.self_mem_walk c) harguments
    exact ⟨Cursor.parts_subset_walk hmem (List.mem_of_mem_head? hhead), by simpa using hobject⟩

/-- The place of a definition lies at or below its node and is not empty. -/
theorem Defines.place_spec (hwf : src.WellFormed) (hc : c ∈ src.top.walk) (h : Defines src c definition) :
    definition.place ∈ c.walk ∧ definition.place.node.start < definition.place.node.stop := by
  rcases h with ⟨-, hkind, -, hplace⟩ | ⟨-, hkind, -, hplace⟩ | ⟨-, hspec⟩
  · rw [hplace]
    refine ⟨Cursor.self_mem_walk c, hwf.filled c hc ?_⟩
    exact List.mem_cons_of_mem _ (List.mem_append_left _ hkind)
  · rw [hplace]
    refine ⟨Cursor.self_mem_walk c, hwf.filled c hc ?_⟩
    exact List.mem_cons_of_mem _ (List.mem_append_right _ hkind)
  · obtain ⟨hmem, hobject⟩ := specOfCall?_mem_walk hspec
    refine ⟨hmem, hwf.filled _ (Cursor.walk_subset_walk hc hmem) ?_⟩
    exact List.mem_cons.mpr (Or.inl hobject)

/-! ## Repeated bytes -/

theorem dedupe_eq_self {seen : List (ℕ × ℕ)} {definitions : List Definition}
    (hnew : ∀ definition ∈ definitions, definition.range ∉ seen)
    (hranges : definitions.Pairwise fun d e => d.range ≠ e.range) : dedupe seen definitions = definitions := by
  induction definitions generalizing seen with
  | nil => rfl
  | cons first rest ih =>
    obtain ⟨hfirst, hrest⟩ := List.pairwise_cons.mp hranges
    have hseen : seen.contains first.range = false := by
      simpa using hnew first List.mem_cons_self
    rw [dedupe, hseen, if_neg (by decide), ih (fun definition hmem => ?_) hrest]
    rw [List.mem_cons, not_or]
    exact ⟨(hfirst definition hmem).symm, hnew definition (List.mem_cons_of_mem _ hmem)⟩

/-- The definitions of a tree have different bytes. -/
theorem pairwise_range_definition? (hwf : src.WellFormed) :
    (src.top.walk.filterMap (definition? src exports)).Pairwise fun d e => d.range ≠ e.range := by
  rw [List.pairwise_filterMap]
  refine hwf.nested.pairwise_walk.imp_of_mem fun {c d} hc hd hcd upper hupper lower hlower heq => ?_
  have hstop : c.node.stop ≤ d.node.start := hcd.resolve_left
    (not_isAbove_of_definition? hwf hc hd (by rw [hupper]; rfl) (by rw [hlower]; rfl))
  obtain ⟨hplaceC, hfilled⟩ := (defines_of_definition? hupper).place_spec hwf hc
  obtain ⟨hplaceD, -⟩ := (defines_of_definition? hlower).place_spec hwf hd
  have hupperStop := ((hwf.nested.below hc).within_walk hplaceC).2
  have hlowerStart := ((hwf.nested.below hd).within_walk hplaceD).1
  have hstart : upper.place.node.start = lower.place.node.start := congrArg Prod.fst heq
  omega

/-! ## All definitions -/

/-- A node has the shape of a component and is bound at the top level. -/
def IsBoundCandidate (src : SourceFile) (c : Cursor) : Prop := IsCandidate src c ∧ IsBound src c.node c.ancestors

instance (src : SourceFile) (c : Cursor) : Decidable (IsBoundCandidate src c) :=
  decidable_of_iff _ (definition?_isSome_iff src [] c)

theorem isBoundCandidate_iff (src : SourceFile) (exports : List String) (c : Cursor) :
    IsBoundCandidate src c ↔ (definition? src exports c).isSome = true := (definition?_isSome_iff src exports c).symm

/-- The definitions of some nodes are those of the bound candidates among them, one for each. -/
theorem forall₂_filterMap_definition? (places : List Cursor) :
    List.Forall₂ (Defines src) (places.filter fun c => IsBoundCandidate src c)
      (places.filterMap (definition? src exports)) := by
  induction places with
  | nil => exact List.Forall₂.nil
  | cons c rest ih =>
    cases h : definition? src exports c with
    | none =>
      have hnot : ¬ IsBoundCandidate src c := by
        rw [isBoundCandidate_iff src exports, h]
        exact Bool.false_ne_true
      rwa [List.filterMap_cons_none h, List.filter_cons_of_neg (by simpa using hnot)]
    | some definition =>
      have hbound : IsBoundCandidate src c := (isBoundCandidate_iff src exports c).mpr (by rw [h]; rfl)
      rw [List.filterMap_cons_some h, List.filter_cons_of_pos (by simpa using hbound)]
      exact List.Forall₂.cons (defines_of_definition? h) ih

/-- **Every bound candidate has one definition, in the order of the tree, and no bound candidate stands inside
another one.** No definition is left out because of its bytes. -/
theorem definitionsOf_complete (src : SourceFile) (hwf : src.WellFormed) :
    definitionsOf src = src.top.walk.filterMap (definition? src src.exportedNames) ∧
    List.Forall₂ (Defines src) (src.top.walk.filter fun c => IsBoundCandidate src c) (definitionsOf src) ∧
    ((definitionsOf src).map (·.place)).Sublist src.top.walk ∧
    ∀ c ∈ src.top.walk, ∀ d ∈ src.top.walk, IsBoundCandidate src c → IsBoundCandidate src d → ¬ c.IsAbove d := by
  have hall : definitionsOf src = src.top.walk.filterMap (definition? src src.exportedNames) :=
    dedupe_eq_self (fun _ _ => List.not_mem_nil) (pairwise_range_definition? hwf)
  have hapart : ∀ c ∈ src.top.walk, ∀ d ∈ src.top.walk, IsBoundCandidate src c → IsBoundCandidate src d →
      ¬ c.IsAbove d := fun c hc d hd hupper hlower =>
    not_isAbove_of_definition? hwf hc hd ((isBoundCandidate_iff src [] c).mp hupper)
      ((isBoundCandidate_iff src [] d).mp hlower)
  refine ⟨hall, hall ▸ forall₂_filterMap_definition? src.top.walk, ?_, hapart⟩
  rw [hall, List.map_filterMap]
  refine Cursor.filterMap_walk_sublist (fun c hc place hplace => ?_) fun c hc d hd habove => ?_
  · obtain ⟨definition, hdefinition, rfl⟩ := Option.map_eq_some_iff.mp hplace
    exact ((defines_of_definition? hdefinition).place_spec hwf hc).1
  · simp only [Option.map_eq_none_iff]
    by_contra hboth
    rw [not_or, ← Ne, ← Ne, Option.ne_none_iff_isSome, Option.ne_none_iff_isSome] at hboth
    exact not_isAbove_of_definition? hwf hc hd hboth.1 hboth.2 habove

/-- The source `const A = memo(() => <i/>)` and `export default createClass({})`, on two lines. -/
def wrappedSource : SourceFile :=
  let markup : Node := .mk "jsx_self_closing_element" true false "body" 21 25
    [.leaf "<" false "" 21 22, .leaf "identifier" true "name" 22 23, .leaf "/>" false "" 23 25]
  let function : Node := .mk "arrow_function" true false "" 15 25
    [.leaf "formal_parameters" true "parameters" 15 17, .leaf "=>" false "" 18 20, markup]
  let memo : Node := .mk "call_expression" true false "value" 10 26
    [.leaf "identifier" true "function" 10 14,
      .mk "arguments" true false "arguments" 14 26 [.leaf "(" false "" 14 15, function, .leaf ")" false "" 25 26]]
  let declarator : Node := .mk "variable_declarator" true false "" 6 26
    [.leaf "identifier" true "name" 6 7, .leaf "=" false "" 8 9, memo]
  let creation : Node := .mk "call_expression" true false "value" 42 57
    [.leaf "identifier" true "function" 42 53,
      .mk "arguments" true false "arguments" 53 57
        [.leaf "(" false "" 53 54, .leaf "object" true "" 54 56, .leaf ")" false "" 56 57]]
  .ofTree (some "a.js") "const A = memo(() => <i/>)\nexport default createClass({})\n" .none
    (.mk "program" true false "" 0 58
      [.mk "lexical_declaration" true false "" 0 26 [.leaf "const" false "kind" 0 5, declarator],
        .mk "export_statement" true false "" 27 57
          [.leaf "export" false "" 27 33, .leaf "default" false "" 34 41, creation]])

theorem wellFormed_wrappedSource : wrappedSource.WellFormed := by
  refine ⟨⟨?_, ?_, ?_⟩, ?_, ?_, ?_⟩ <;> decide +kernel

theorem definitionsOf_wrappedSource : wrappedSource.WellFormed ∧
    ((definitionsOf wrappedSource).map (·.kind) = [.byFunction, .bySpecification] ∧
      (definitionsOf wrappedSource).map (·.name) = [some "A", none]) ∧
    List.Forall₂ (Defines wrappedSource) (wrappedSource.top.walk.filter fun c => IsBoundCandidate wrappedSource c)
      (definitionsOf wrappedSource) :=
  ⟨wellFormed_wrappedSource, by decide +kernel,
    (definitionsOf_complete wrappedSource wellFormed_wrappedSource).2.1⟩

end ComponentDocs

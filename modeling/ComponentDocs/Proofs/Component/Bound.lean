import ComponentDocs.Component.Resolver
import ComponentDocs.Proofs.Tree.Order
import Mathlib.Tactic.SplitIfs

/-!
# Components bound at the top level

Which nodes define a component, and why none of them stands inside another one: the way up from a node that is
bound at the top level does not pass a class or a function, and passes a call that creates a class only out of
its callee.

* `IsCandidate`: a node has the shape of a component;
* `LetsThrough`, `IsBound`: the positions on the way up from a node that is bound at the top level;
* `definition?_isSome_iff`: the nodes with a definition;
* `SourceFile.WellFormed`: what the trees of a grammar have in common;
* **`not_isAbove_of_definition?`**: no node with a definition is above another one.
-/

namespace ComponentDocs

/-! ## Shapes -/

/-- The node has the shape of a component: a component class, a function that returns markup, or a call that
creates a class from an object literal. -/
def IsCandidate (src : SourceFile) (c : Cursor) : Prop :=
  (c.kind ∈ classKinds ∧ isComponentClass src c.node = true) ∨
    (c.kind ∈ functionKinds ∧ returnsMarkup src c = true) ∨ (specOfCall? src c).isSome = true

theorem candidate?_isSome_iff {src : SourceFile} {c : Cursor} : (candidate? src c).isSome ↔ IsCandidate src c := by
  unfold candidate? IsCandidate
  split_ifs with hclass hfunction
  · simp_all
  · simp_all
  · simp only [Bool.and_eq_true, List.contains_iff_mem] at hclass hfunction
    rw [Option.isSome_map, or_iff_right hclass, or_iff_right hfunction]

/-- The candidate at a node is the class or function there, or the object literal of the call there. -/
theorem candidate?_eq_some {src : SourceFile} {c : Cursor} {candidate : Candidate}
    (h : candidate? src c = some candidate) :
    candidate.place = c ∧
      ((candidate.kind = .byClass ∧ c.kind ∈ classKinds ∧ isComponentClass src c.node = true ∧ candidate.target = c) ∨
        (candidate.kind = .byFunction ∧ c.kind ∈ functionKinds ∧ returnsMarkup src c = true ∧
          candidate.target = c) ∨
        (candidate.kind = .bySpecification ∧ specOfCall? src c = some candidate.target)) := by
  unfold candidate? at h
  split_ifs at h with hclass hfunction
  · cases h
    simp_all
  · cases h
    simp_all
  · obtain ⟨spec, hspec, rfl⟩ := Option.map_eq_some_iff.mp h
    simp_all

/-! ## The way up -/

/-- The position of a node below its parent lets a definition through to the ancestors `outer` of the parent. -/
def LetsThrough (src : SourceFile) (node parent : Node) (outer : List Node) : Prop :=
  parent.kind = "export_statement" ∨
  (parent.kind = "variable_declarator" ∧ fillsField parent "value" node = true) ∨
  (parent.kind = "assignment_expression" ∧ fillsField parent "right" node = true) ∨
  (parent.kind = "arguments" ∧ ∃ call, outer.head? = some call ∧ calleeIn src wrapperCallees call = true) ∨
  parent.kind ∈ passingKinds

/-- The way up from a node through its ancestors comes to the program, and all positions on it let a definition
through. -/
inductive IsBound (src : SourceFile) : Node → List Node → Prop
  | top {node program : Node} {outer : List Node} (hprogram : program.kind = "program") :
    IsBound src node (program :: outer)
  | step {node parent : Node} {outer : List Node} (hlets : LetsThrough src node parent outer)
    (hbound : IsBound src parent outer) : IsBound src node (parent :: outer)

theorem isBound_cons_iff {src : SourceFile} {node parent : Node} {outer : List Node} :
    IsBound src node (parent :: outer) ↔
      parent.kind = "program" ∨ (LetsThrough src node parent outer ∧ IsBound src parent outer) := by
  constructor
  · rintro (hprogram | ⟨hlets, hbound⟩)
    · exact Or.inl hprogram
    · exact Or.inr ⟨hlets, hbound⟩
  · rintro (hprogram | ⟨hlets, hbound⟩)
    · exact .top hprogram
    · exact .step hlets hbound

theorem anchorFrom_isSome_iff {src : SourceFile} {node : Node} {found : Anchor} {ancestors : List Node} :
    (anchorFrom src node found ancestors).isSome ↔ IsBound src node ancestors := by
  induction ancestors generalizing node found with
  | nil => exact iff_of_false (by simp [anchorFrom]) (by rintro ⟨⟩)
  | cons parent outer ih =>
    rw [isBound_cons_iff, anchorFrom]
    unfold LetsThrough
    split_ifs with hprogram hexport hdeclarator hvalue hassignment hright harguments hcallee hpassing
    · simp [hprogram]
    · rw [ih]
      simp [hexport]
    · rw [ih]
      simp [hdeclarator, hvalue]
    · simp [hdeclarator, hvalue, passingKinds]
    · rw [ih]
      simp [hassignment, hright]
    · simp [hassignment, hright, passingKinds]
    · rw [ih]
      simp_all [Option.any_eq_true]
    · simp_all [Option.any_eq_true, passingKinds]
    · rw [ih]
      simp_all
    · simp_all

theorem definition?_isSome_iff (src : SourceFile) (exports : List String) (c : Cursor) :
    (definition? src exports c).isSome ↔ IsCandidate src c ∧ IsBound src c.node c.ancestors := by
  rw [← candidate?_isSome_iff, definition?]
  cases hcandidate : candidate? src c with
  | none => simp
  | some candidate =>
    have hplace := (candidate?_eq_some hcandidate).1
    have hanchor : (anchor? src candidate.place).isSome ↔ IsBound src c.node c.ancestors := by
      rw [hplace]
      exact anchorFrom_isSome_iff
    rw [← hanchor]
    cases h : anchor? src candidate.place <;> simp [h]

/-! ## Trees of a grammar -/

/-- The kinds of the parts of a call whose callee is a name or a member access. -/
def callPartKinds : List String :=
  ["identifier", "member_expression", "?.", "optional_chain", "type_arguments", "arguments", "template_string",
   "comment", "html_comment", "ERROR"]

/-- What the trees of a grammar have in common: children lie in their parent and follow one another; classes, functions
and objects hold tokens of their own and so are not empty; the program is the top; and a call that creates a class has
the parts of a call whose callee is a name or a member access. -/
structure SourceFile.WellFormed (src : SourceFile) : Prop where
  nested : Cursor.Nested src.top.walk
  filled : ∀ c ∈ src.top.walk, c.kind ∈ "object" :: classKinds ++ functionKinds → c.node.start < c.node.stop
  program : ∀ c ∈ src.top.walk, c.kind = "program" → c.ancestors = []
  callee : ∀ c ∈ src.top.walk, (specOfCall? src c).isSome = true → ∀ child ∈ c.node.children,
    child.kind ∈ callPartKinds

/-! ## No definition inside another one -/

/-- The kinds of the nodes on the way up from a definition to the program. -/
def wayKinds : List String :=
  ["export_statement", "variable_declarator", "assignment_expression", "arguments"] ++ passingKinds

theorem LetsThrough.kind_mem {src : SourceFile} {node parent : Node} {outer : List Node}
    (h : LetsThrough src node parent outer) : parent.kind ∈ wayKinds := by
  rcases h with h | ⟨h, -⟩ | ⟨h, -⟩ | ⟨h, -⟩ | h
  · simp [h, wayKinds]
  · simp [h, wayKinds]
  · simp [h, wayKinds]
  · simp [h, wayKinds]
  · exact List.mem_append_right _ h

theorem LetsThrough.exists_call {src : SourceFile} {node parent : Node} {outer : List Node}
    (h : LetsThrough src node parent outer) (harguments : parent.kind = "arguments") :
    ∃ call, outer.head? = some call ∧ calleeIn src wrapperCallees call = true := by
  simp only [LetsThrough, harguments] at h
  rcases h with h | ⟨h, -⟩ | ⟨h, -⟩ | ⟨-, call⟩ | h
  · exact absurd h (by decide)
  · exact absurd h (by decide)
  · exact absurd h (by decide)
  · exact call
  · exact absurd h (by decide)

/-- The way up from a bound node to a place above it enters that place from one of its children, and the child is
the node itself or lies on the way. -/
theorem exists_child_of_isBound {src : SourceFile} (hwf : src.WellFormed) {node parent : Node}
    {ancestors outer : List Node} (hnode : (⟨node, ancestors⟩ : Cursor) ∈ src.top.walk)
    (hbound : IsBound src node ancestors) (habove : parent :: outer <:+ ancestors) :
    ∃ child ∈ parent.children, IsBound src child (parent :: outer) ∧
      ((child = node ∧ ancestors = parent :: outer) ∨ ∃ lower, LetsThrough src lower child (parent :: outer)) := by
  induction ancestors generalizing node with
  | nil => exact absurd (List.suffix_nil.mp habove) (List.cons_ne_nil _ _)
  | cons first others ih =>
    obtain ⟨hfirst, hchild⟩ := Cursor.parent_mem_walk hnode rfl
    rcases List.suffix_cons_iff.mp habove with heq | habove
    · obtain ⟨rfl, rfl⟩ := List.cons.inj heq
      exact ⟨node, hchild, hbound, Or.inl ⟨rfl, rfl⟩⟩
    · rcases isBound_cons_iff.mp hbound with hprogram | ⟨hlets, hbound⟩
      · have hnil : others = [] := hwf.program _ hfirst hprogram
        rw [hnil] at habove
        exact absurd (List.suffix_nil.mp habove) (List.cons_ne_nil _ _)
      · obtain ⟨child, hmem, hup, ⟨rfl, rfl⟩ | hway⟩ := ih hfirst hbound habove
        · exact ⟨child, hmem, hup, Or.inr ⟨node, hlets⟩⟩
        · exact ⟨child, hmem, hup, Or.inr hway⟩

theorem call_of_specOfCall? {src : SourceFile} {c : Cursor} (hspec : (specOfCall? src c).isSome = true) :
    c.kind = "call_expression" ∧ calleeIn src createClassCallees c.node = true := by
  unfold specOfCall? at hspec
  split_ifs at hspec with h
  · exact h
  · exact absurd hspec (by decide)

/-- A call that creates a class wraps no component. -/
theorem not_calleeIn_wrapperCallees {src : SourceFile} {c : Cursor} (hspec : (specOfCall? src c).isSome = true) :
    calleeIn src wrapperCallees c.node = false := by
  have hcallee := (call_of_specOfCall? hspec).2
  unfold calleeIn at hcallee ⊢
  cases htext : src.text? (c.node.child? "function") with
  | none => rfl
  | some text =>
    rw [htext, Option.any_some, List.contains_iff_mem] at hcallee
    rw [Option.any_some]
    have hapart : ∀ text ∈ createClassCallees, wrapperCallees.contains text = false := by decide
    exact hapart text hcallee

/-- No part of a call has the shape of a component. -/
theorem IsCandidate.kind_notMem_callPartKinds {src : SourceFile} {c : Cursor} (h : IsCandidate src c) :
    c.kind ∉ callPartKinds := by
  have hapart : ∀ kind ∈ callPartKinds, kind ∉ classKinds ∧ kind ∉ functionKinds ∧ kind ≠ "call_expression" := by
    decide
  intro hpart
  obtain ⟨hclass, hfunction, hcall⟩ := hapart _ hpart
  rcases h with ⟨h, -⟩ | ⟨h, -⟩ | h
  · exact hclass h
  · exact hfunction h
  · exact hcall (call_of_specOfCall? h).1

/-- A way up that passes a node with the shape of a component passes a call that creates a class. -/
theorem IsCandidate.isSome_specOfCall? {src : SourceFile} {c : Cursor} {child : Node} (h : IsCandidate src c)
    (hup : IsBound src child (c.node :: c.ancestors)) : (specOfCall? src c).isSome = true := by
  have hshut : ∀ kind ∈ classKinds ++ functionKinds, kind ∉ "program" :: wayKinds := by decide
  have hkind : c.kind ∈ "program" :: wayKinds := by
    rcases isBound_cons_iff.mp hup with hprogram | ⟨hlets, -⟩
    · exact List.mem_cons.mpr (Or.inl hprogram)
    · exact List.mem_cons_of_mem _ hlets.kind_mem
  rcases h with ⟨h, -⟩ | ⟨h, -⟩ | h
  · exact absurd hkind (hshut _ (List.mem_append_left _ h))
  · exact absurd hkind (hshut _ (List.mem_append_right _ h))
  · exact h

/-- The parts of a call that creates a class let nothing through to it. -/
theorem not_letsThrough_of_part {src : SourceFile} {c : Cursor} (hspec : (specOfCall? src c).isSome = true)
    {node part : Node} (hpart : part.kind ∈ callPartKinds) : ¬ LetsThrough src node part (c.node :: c.ancestors) := by
  intro hlets
  -- The only part of a call on a way up is its arguments, and these ask for a wrapper.
  have harguments : part.kind = "arguments" := by
    have hapart : ∀ kind ∈ callPartKinds, kind ∈ wayKinds → kind = "arguments" := by decide
    exact hapart _ hpart hlets.kind_mem
  obtain ⟨call, hhead, hcallee⟩ := hlets.exists_call harguments
  cases hhead
  rw [not_calleeIn_wrapperCallees hspec] at hcallee
  exact absurd hcallee (by decide)

/-- **No node with a definition is above another one.** -/
theorem not_isAbove_of_definition? {src : SourceFile} (hwf : src.WellFormed) {exports : List String} {c d : Cursor}
    (hc : c ∈ src.top.walk) (hd : d ∈ src.top.walk) (hupper : (definition? src exports c).isSome = true)
    (hlower : (definition? src exports d).isSome = true) : ¬ c.IsAbove d := by
  intro habove
  rw [definition?_isSome_iff] at hupper hlower
  obtain ⟨child, hchild, hup, hway⟩ := exists_child_of_isBound hwf hd hlower.2 habove
  have hspec := hupper.1.isSome_specOfCall? hup
  have hpart := hwf.callee c hc hspec child hchild
  rcases hway with ⟨rfl, -⟩ | ⟨lower, hlets⟩
  · exact hlower.1.kind_notMem_callPartKinds hpart
  · exact not_letsThrough_of_part hspec hpart hlets

end ComponentDocs

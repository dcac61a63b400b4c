import ComponentDocs.Proofs.Component.Way

/-!
# Calls around definitions

Which calls stand on the way up from a definition to the top level.

* `SourceFile.CallParts`: what the calls of a tree are made of;
* `Cursor.Enters.kind_mem`, `Cursor.Enters.calleeIn`: what a step of such a way starts at;
* **`wrapped_or_called`**: a call on the way up keeps the component it is given, or has it in its callee.
-/

namespace ComponentDocs

variable {src : SourceFile} {c : Cursor} {child call : Node}

/-- A call is made of its callee, its arguments and parts that are no expressions. -/
def SourceFile.CallParts (src : SourceFile) : Prop :=
  ∀ c ∈ src.top.walk, c.kind = "call_expression" → ∀ child ∈ c.node.children,
    child.field = "function" ∨ child.kind ∈ callPartKinds

/-- A step on the way up from a bound node starts at the node or at one of the kinds on such ways. -/
theorem Cursor.Enters.kind_mem (h : c.Enters child call) (hbound : IsBound src c.node c.ancestors) :
    child = c.node ∨ child.kind ∈ wayKinds := by
  rcases List.mem_cons.mp (h.subset List.mem_cons_self) with rfl | hway
  · exact Or.inl rfl
  · exact Or.inr (hbound.kind_mem hway)

theorem Cursor.Enters.calleeIn (h : c.Enters child call) (hcandidate : IsCandidate src c)
    (hbound : IsBound src c.node c.ancestors) (harguments : child.kind = "arguments") :
    calleeIn src wrapperCallees call = true := by
  rcases List.infix_cons_iff.mp h with hprefix | hrest
  · obtain ⟨rfl, -⟩ := List.cons_prefix_cons.mp hprefix
    have hpart : c.kind ∈ callPartKinds := by
      rw [show c.kind = "arguments" from harguments]
      decide
    exact absurd hpart hcandidate.kind_notMem_callPartKinds
  · exact hbound.calleeIn hrest harguments

/-- **Every call on the way up from a definition has it among its arguments and keeps the component it is given, or has
it in its callee.** -/
theorem wrapped_or_called (hparts : src.CallParts) {definition : Definition}
    (hdefinition : definition ∈ definitionsOf src) :
    ∃ c ∈ src.top.walk, Defines src c definition ∧ IsBound src c.node c.ancestors ∧
      ∀ child call, c.Enters child call → call.kind = "call_expression" →
        (child.kind = "arguments" ∧ calleeIn src wrapperCallees call = true) ∨ child.field = "function" := by
  obtain ⟨c, hc, hsome⟩ := exists_of_mem_definitionsOf hdefinition
  obtain ⟨hcandidate, hbound, -⟩ := definition?_eq_some hsome
  refine ⟨c, hc, defines_of_definition? hsome, hbound, fun child call henters hcall => ?_⟩
  obtain ⟨⟨outer, hplace⟩, hchild⟩ := henters.mem_children hc
  rcases hparts _ hplace hcall child hchild with hcallee | hpart
  · exact Or.inr hcallee
  · -- The only parts of a call on a way up are its arguments.
    have harguments : child.kind = "arguments" := by
      have hapart : ∀ kind ∈ callPartKinds, kind ∈ wayKinds → kind = "arguments" := by decide
      rcases henters.kind_mem hbound with rfl | hway
      · exact absurd hpart hcandidate.kind_notMem_callPartKinds
      · exact hapart _ hpart hway
    exact Or.inl ⟨harguments, henters.calleeIn hcandidate hbound harguments⟩

theorem wrapped_or_called_wrappedSource : wrappedSource.CallParts ∧
    ∃ definition ∈ definitionsOf wrappedSource, definition.name = some "A" ∧
      ∃ c ∈ wrappedSource.top.walk, Defines wrappedSource c definition ∧
        IsBound wrappedSource c.node c.ancestors ∧
        ∀ child call, c.Enters child call → call.kind = "call_expression" →
          (child.kind = "arguments" ∧ calleeIn wrappedSource wrapperCallees call = true) ∨
            child.field = "function" := by
  have hparts : wrappedSource.CallParts := by
    unfold SourceFile.CallParts
    decide +kernel
  have hnames : some "A" ∈ (definitionsOf wrappedSource).map (·.name) := by decide +kernel
  obtain ⟨definition, hmem, hname⟩ := List.mem_map.mp hnames
  exact ⟨hparts, definition, hmem, hname, wrapped_or_called hparts hmem⟩

end ComponentDocs

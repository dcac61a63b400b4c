import ComponentDocs.Proofs.Component.Definitions

/-!
# The way up from a definition

What a definition takes from the nodes between it and the top level: its name, its export, and the calls it is given
to.

* `Cursor.way`, `Cursor.Enters`: the nodes on the way up, and one step of it;
* `SourceFile.boundName?`: the first name bound on the way, or else the own name;
* `anchorFrom_eq_some`: what the way up collects;
* `exists_of_mem_definitionsOf`: a definition is that of a bound candidate, with its name and its flag;
* `IsBound.kind_mem`, `IsBound.calleeIn`: the kinds on the way, and the callees of the calls on it.
-/

namespace ComponentDocs

/-! ## The nodes on the way -/

/-- The ancestors below the program, nearest first. -/
def wayThrough (ancestors : List Node) : List Node := ancestors.takeWhile (·.kind != "program")

theorem wayThrough_cons_of_program {parent : Node} {outer : List Node} (h : parent.kind = "program") :
    wayThrough (parent :: outer) = [] := List.takeWhile_cons_of_neg (by simp [h])

theorem wayThrough_cons {parent : Node} {outer : List Node} (h : parent.kind ≠ "program") :
    wayThrough (parent :: outer) = parent :: wayThrough outer := List.takeWhile_cons_of_pos (by simp [h])

namespace Cursor

/-- The nodes on the way up from a place to its top-level statement, without the place itself. -/
def way (c : Cursor) : List Node := wayThrough c.ancestors

/-- The way up from a place enters `parent` from its child `child`. -/
def Enters (c : Cursor) (child parent : Node) : Prop := [child, parent] <:+: c.node :: c.way

end Cursor

variable {src : SourceFile} {c : Cursor} {node child parent : Node} {ancestors : List Node}

theorem exists_of_infix_ancestors (hnode : (⟨node, ancestors⟩ : Cursor) ∈ src.top.walk)
    (hstep : [child, parent] <:+: node :: ancestors) :
    (∃ outer, (⟨parent, outer⟩ : Cursor) ∈ src.top.walk) ∧ child ∈ parent.children := by
  induction ancestors generalizing node with
  | nil => exact absurd hstep.length_le (by simp)
  | cons first others ih =>
    obtain ⟨hfirst, hchild⟩ := Cursor.parent_mem_walk hnode rfl
    rcases List.infix_cons_iff.mp hstep with hprefix | hrest
    · obtain ⟨rfl, hparent⟩ := List.cons_prefix_cons.mp hprefix
      obtain ⟨rfl, -⟩ := List.cons_prefix_cons.mp hparent
      exact ⟨⟨others, hfirst⟩, hchild⟩
    · exact ih hfirst hrest

/-- The way up enters places of the tree, each from one of its children. -/
theorem Cursor.Enters.mem_children (hc : c ∈ src.top.walk) (h : c.Enters child parent) :
    (∃ outer, (⟨parent, outer⟩ : Cursor) ∈ src.top.walk) ∧ child ∈ parent.children := by
  have hprefix : c.node :: c.way <+: c.node :: c.ancestors :=
    (List.prefix_cons_inj _).mpr (List.takeWhile_prefix _)
  exact exists_of_infix_ancestors hc (h.trans hprefix.isInfix)

/-! ## Names and exports -/

/-- The name that a node on the way up binds: that of a declarator, or the left side of an assignment. -/
def SourceFile.bindingName? (src : SourceFile) (node : Node) : Option String :=
  if node.kind = "variable_declarator" then src.text? (node.child? "name")
  else if node.kind = "assignment_expression" then src.text? (node.child? "left")
  else none

/-- The name inside a class or function; a call has none. -/
def SourceFile.innerName? (src : SourceFile) (c : Cursor) : Option String :=
  if c.kind = "call_expression" then none else src.text? (c.node.child? "name")

/-- The first name that is bound on the way up from a place, or else the name inside it. -/
def SourceFile.boundName? (src : SourceFile) (c : Cursor) : Option String :=
  (c.way.findSome? src.bindingName?).or (src.innerName? c)

/-- The way up collects the first bound name and whether an export is passed. -/
theorem anchorFrom_eq_some {found anchor : Anchor} (h : anchorFrom src node found ancestors = some anchor) :
    anchor.name = found.name.or ((wayThrough ancestors).findSome? src.bindingName?) ∧
      anchor.exported = (found.exported || (wayThrough ancestors).any (·.kind == "export_statement")) := by
  induction ancestors generalizing node found with
  | nil => cases h
  | cons parent outer ih =>
    rw [anchorFrom] at h
    split_ifs at h with hprogram hexport hdeclarator hvalue hassignment hright harguments hcallee hpassing
    · cases h
      simp [wayThrough_cons_of_program hprogram]
    all_goals
      obtain ⟨hname, hexported⟩ := ih h
      rw [wayThrough_cons hprogram, List.findSome?_cons, List.any_cons, hname, hexported]
      simp only [SourceFile.bindingName?]
    · simp [hexport]
    · cases src.text? (parent.child? "name") <;> simp [hdeclarator]
    · cases src.text? (parent.child? "left") <;> simp [hassignment]
    · simp [harguments]
    · simp [beq_false_of_ne hexport, hdeclarator, hassignment]

/-- The definition at a node is bound at the top level; it takes its name from the way up or from itself, and it is
exported if an export is on the way or its name is among the exported ones. -/
theorem definition?_eq_some {exports : List String} {definition : Definition}
    (h : definition? src exports c = some definition) :
    IsCandidate src c ∧ IsBound src c.node c.ancestors ∧ definition.name = src.boundName? c ∧
      definition.exported =
        (c.way.any (·.kind == "export_statement") || (src.boundName? c).any exports.contains) := by
  obtain ⟨hcandidate, hbound⟩ := (definition?_isSome_iff src exports c).mp (by rw [h]; rfl)
  refine ⟨hcandidate, hbound, ?_⟩
  unfold definition? at h
  simp only [Option.bind_eq_bind, Option.bind_eq_some_iff, Option.pure_def, Option.some.injEq] at h
  obtain ⟨candidate, hsome, anchor, hanchor, rfl⟩ := h
  obtain ⟨hplace, hkinds⟩ := candidate?_eq_some hsome
  obtain ⟨hname, hexported⟩ := anchorFrom_eq_some hanchor
  rw [hplace] at hname hexported
  have hinner : (if candidate.kind = .bySpecification then none else src.text? (candidate.target.node.child? "name")) =
      src.innerName? c := by
    have hcall : ∀ kind ∈ classKinds ++ functionKinds, kind ≠ "call_expression" := by decide
    rcases hkinds with ⟨hkind, hclass, -, htarget⟩ | ⟨hkind, hfunction, -, htarget⟩ | ⟨hkind, hspec⟩
    · have hnot := hcall _ (List.mem_append_left _ hclass)
      rw [htarget, hkind, SourceFile.innerName?, if_neg (by decide), if_neg hnot]
    · have hnot := hcall _ (List.mem_append_right _ hfunction)
      rw [htarget, hkind, SourceFile.innerName?, if_neg (by decide), if_neg hnot]
    · have hkindC := (call_of_specOfCall? (by rw [hspec]; rfl : (specOfCall? src c).isSome = true)).1
      rw [hkind, SourceFile.innerName?, if_pos rfl, if_pos hkindC]
  have hbinding : (candidate.define src exports anchor).name = src.boundName? c := by
    rw [Candidate.define, SourceFile.boundName?, hinner, hname, Option.none_or, Cursor.way]
  refine ⟨hbinding, ?_⟩
  rw [← hbinding, Candidate.define, hexported, Bool.false_or, Cursor.way]

theorem dedupe_subset {seen : List (ℕ × ℕ)} {definitions : List Definition} :
    dedupe seen definitions ⊆ definitions := by
  induction definitions generalizing seen with
  | nil => exact List.Subset.refl _
  | cons first rest ih =>
    rw [dedupe]
    split_ifs
    · exact List.subset_cons_of_subset _ ih
    · exact List.cons_subset_cons _ ih

theorem exists_of_mem_definitionsOf {definition : Definition} (h : definition ∈ definitionsOf src) :
    ∃ c ∈ src.top.walk, definition? src src.exportedNames c = some definition :=
  List.mem_filterMap.mp (dedupe_subset h)

/-! ## Kinds and calls -/

/-- The kinds of the nodes that have definitions. -/
def definingKinds : List String := "call_expression" :: classKinds ++ functionKinds

theorem Defines.kind_mem {definition : Definition} (h : Defines src c definition) : c.kind ∈ definingKinds := by
  rcases h with ⟨-, hkind, -⟩ | ⟨-, hkind, -⟩ | ⟨-, hspec⟩
  · exact List.mem_append_left _ (List.mem_cons_of_mem _ hkind)
  · exact List.mem_append_right _ hkind
  · rw [(call_of_specOfCall? (by rw [hspec]; rfl : (specOfCall? src c).isSome = true)).1]
    exact List.mem_cons_self

theorem IsBound.kind_mem (h : IsBound src node ancestors) (hparent : parent ∈ wayThrough ancestors) :
    parent.kind ∈ wayKinds := by
  induction h with
  | top hprogram =>
    rw [wayThrough_cons_of_program hprogram] at hparent
    exact absurd hparent List.not_mem_nil
  | @step node first outer hlets _ ih =>
    by_cases hprogram : first.kind = "program"
    · rw [wayThrough_cons_of_program hprogram] at hparent
      exact absurd hparent List.not_mem_nil
    · rw [wayThrough_cons hprogram] at hparent
      rcases List.mem_cons.mp hparent with rfl | hparent
      · exact hlets.kind_mem
      · exact ih hparent

/-- The arguments on the way up are those of a call that keeps a component. -/
theorem IsBound.calleeIn (h : IsBound src node ancestors) (hstep : [child, parent] <:+: wayThrough ancestors)
    (harguments : child.kind = "arguments") : calleeIn src wrapperCallees parent = true := by
  induction h with
  | top hprogram =>
    rw [wayThrough_cons_of_program hprogram] at hstep
    exact absurd hstep.length_le (by simp)
  | @step node first outer hlets _ ih =>
    by_cases hprogram : first.kind = "program"
    · rw [wayThrough_cons_of_program hprogram] at hstep
      exact absurd hstep.length_le (by simp)
    rw [wayThrough_cons hprogram] at hstep
    rcases List.infix_cons_iff.mp hstep with hprefix | hrest
    · obtain ⟨rfl, hparent⟩ := List.cons_prefix_cons.mp hprefix
      have hhead : outer.head? = some parent := by
        obtain ⟨others, hothers⟩ := hparent.trans (List.takeWhile_prefix _)
        rw [← hothers]
        rfl
      obtain ⟨call, hcall, hcallee⟩ := hlets.exists_call harguments
      rw [hhead] at hcall
      cases hcall
      exact hcallee
    · exact ih hrest

end ComponentDocs

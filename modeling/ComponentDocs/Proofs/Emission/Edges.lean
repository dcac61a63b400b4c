import ComponentDocs.Proofs.Emission.Seed
import Mathlib.Data.List.Pairwise
import Mathlib.Data.List.Perm.Basic

/-!
# Edges of a file

The edges at each node of a file, in the order in which they were emitted.

* `fileRecords`: the components and props of a file with their records; `filter_text_fileUses`: those that use
  a text;
* `filter_entity_edges`, `filter_use_edges`: the edges to entities, and those to descriptions;
* **`filter_target_entity`**, **`filter_target_description`**: the edges that lead to a node;
* **`map_target_filter_source`**: the edges that leave a node lead to its children.
-/

namespace ComponentDocs

/-! ## Entities -/

section

variable (createId : String → String) (file : String)

/-- The props of the component at an index and then the component itself, with their records. -/
def recordsAt (component : Record × ℕ) : Fields Record :=
  (propsOf component.1).map (fun prop => (propId createId (seedAt file component) prop, prop)) ++
    [(componentId createId file component, component.1)]

/-- The components and props of a file with their records, in the order in which descriptions are attached to
them. -/
def fileRecords (components : List Record) : Fields Record :=
  components.zipIdx.flatMap (recordsAt createId file)

end

variable {createId : String → String} {file : String} {components : List Record}

theorem fileUses_eq : fileUses createId file components =
    (fileRecords createId file components).flatMap fun entity => usesOf entity.1 entity.2 := by
  rw [fileUses, fileRecords, List.flatMap_assoc]
  congr 1
  funext c
  rw [componentUses, recordsAt, List.flatMap_append, List.flatMap_map, List.flatMap_singleton]
  rfl

theorem filter_text_usesOf (entity : String × Record) (text : String) :
    (usesOf entity.1 entity.2).filter (fun use => use.text = text) =
      if Record.text? entity.2 "description" = some text then [⟨entity.1, text⟩] else [] := by
  rw [usesOf]
  cases Record.text? entity.2 "description" with
  | none => rfl
  | some other =>
    by_cases h : other = text
    · subst h
      simp
    · simp [h]

/-- The uses of a text are those by the entities that have it. -/
theorem filter_text_fileUses (text : String) :
    (fileUses createId file components).filter (fun use => use.text = text) =
    ((fileRecords createId file components).filter fun entity =>
      Record.text? entity.2 "description" = some text).map fun entity => ⟨entity.1, text⟩ := by
  rw [fileUses_eq, List.filter_flatMap]
  induction fileRecords createId file components with
  | nil => rfl
  | cons entity entities ih =>
    rw [List.flatMap_cons, filter_text_usesOf, ih, List.filter_cons]
    simp only [decide_eq_true_eq]
    split_ifs <;> rfl

theorem map_id_componentNodes (component : Record × ℕ) :
    (componentNodes createId file component).map EmittedNode.id =
    (componentSeeds file component).map createId := by
  rw [componentNodes, componentSeeds, List.map_cons, List.map_cons, List.map_map, List.map_map]
  rfl

theorem map_id_fileEntities :
    (fileEntities createId file components).map EmittedNode.id =
      (entitySeeds file components).map createId := by
  rw [fileEntities, entitySeeds, List.map_flatMap, List.map_flatMap]
  simp only [map_id_componentNodes]

theorem names_fileRecords_perm : (Fields.names (fileRecords createId file components)).Perm
    ((fileEntities createId file components).map EmittedNode.id) := by
  rw [Fields.names, fileRecords, fileEntities, List.map_flatMap, List.map_flatMap]
  refine List.Perm.flatMap_left _ fun c _ => ?_
  rw [recordsAt, componentNodes, List.map_append, List.map_map, List.map_cons, List.map_nil, List.map_cons,
    List.map_map]
  exact List.perm_append_singleton ..

/-! ## Edges by what they lead to -/

/-- The edge to an entity. -/
def EmittedNode.edge (node : EmittedNode) : Edge := ⟨node.parent, node.id, node.incoming⟩

theorem filter_useEdges_eq_nil (uses : List Use) :
    (uses.map (Use.edge createId file)).filter (fun e => e.relation ≠ "has_description") = [] := by
  rw [List.filter_eq_nil_iff]
  intro e he
  obtain ⟨use, -, rfl⟩ := List.mem_map.mp he
  exact fun h => of_decide_eq_true h rfl

theorem filter_useEdges_eq_self (uses : List Use) :
    (uses.map (Use.edge createId file)).filter (fun e => e.relation = "has_description") =
      uses.map (Use.edge createId file) := by
  rw [List.filter_eq_self]
  intro e he
  obtain ⟨use, -, rfl⟩ := List.mem_map.mp he
  exact decide_eq_true rfl

theorem filter_entity_edges :
    (fileEdges createId file components).filter (fun e => e.relation ≠ "has_description") =
    (fileEntities createId file components).map EmittedNode.edge := by
  have hprop : ∀ component seed prop, (propEdges createId file component seed prop).filter
      (fun e => e.relation ≠ "has_description") = [(propNode createId file component seed prop).edge] := by
    intro component seed prop
    rw [propEdges, List.filter_cons_of_pos (by simp [propEdge]),
      filter_useEdges_eq_nil]
    rfl
  rw [fileEdges, fileEntities, List.filter_flatMap, List.map_flatMap]
  congr 1
  funext c
  rw [componentEdges, List.filter_cons_of_pos (by simp [componentEdge]), List.filter_append,
    filter_useEdges_eq_nil, List.append_nil, List.filter_flatMap, componentNodes, List.map_cons, List.map_map]
  congr 1
  rw [List.map_eq_flatMap]
  congr 1
  funext prop
  exact hprop _ _ prop

theorem filter_use_edges :
    (fileEdges createId file components).filter (fun e => e.relation = "has_description") =
    (fileUses createId file components).map (Use.edge createId file) := by
  have hprop : ∀ component seed prop, (propEdges createId file component seed prop).filter
      (fun e => e.relation = "has_description") =
        (propUses createId seed prop).map (Use.edge createId file) := by
    intro component seed prop
    rw [propEdges, List.filter_cons_of_neg (by simp [propEdge]), filter_useEdges_eq_self]
  rw [fileEdges, fileUses, List.filter_flatMap, List.map_flatMap]
  congr 1
  funext c
  rw [componentEdges, List.filter_cons_of_neg (by simp [componentEdge]), List.filter_append,
    filter_useEdges_eq_self, List.filter_flatMap, componentUses, List.map_append, List.map_flatMap]
  congr 2
  funext prop
  exact hprop _ _ prop

/-! ## Edges at a node -/

theorem not_isDescription {node : EmittedNode} (h : node ∈ fileEntities createId file components) :
    node.isDescription = false := by
  obtain ⟨c, -, rfl | ⟨prop, -, rfl⟩⟩ := mem_fileEntities.mp h
  · rfl
  · rfl

theorem incoming_eq_iff {node : EmittedNode} :
    node.incoming = "has_description" ↔ node.isDescription = true := by
  cases node <;> simp [EmittedNode.incoming, EmittedNode.isDescription]

section

variable {e : Emission} (h : EmitsFile createId file components e) (hnodup : (e.nodes.map EmittedNode.id).Nodup)
include h hnodup

theorem EmitsFile.nodup_entities : ((fileEntities createId file components).map EmittedNode.id).Nodup := by
  rw [← h.entities]
  exact hnodup.sublist (List.Sublist.map _ List.filter_sublist)

theorem EmitsFile.relation_eq {node : EmittedNode} (hnode : node ∈ e.nodes) {x : Edge} (hx : x ∈ e.edges)
    (htarget : x.target = node.id) : x.relation = node.incoming := by
  obtain ⟨other, hother, hid, hrelation⟩ := h.exists_target hx
  rw [← hrelation, List.inj_on_of_nodup_map hnodup hother hnode (hid.trans htarget)]

/-- **One edge leads to an entity, that of its parent.** -/
theorem EmitsFile.filter_target_entity {node : EmittedNode}
    (hnode : node ∈ fileEntities createId file components) :
    e.edges.filter (fun x => x.target = node.id) = [node.edge] := by
  have hmem : node ∈ e.nodes := h.mem_nodes.mpr (Or.inl hnode)
  have hincoming : node.incoming ≠ "has_description" := by
    rw [Ne, incoming_eq_iff, not_isDescription hnode]
    decide
  calc e.edges.filter (fun x => x.target = node.id)
      = (e.edges.filter fun x => x.relation ≠ "has_description").filter fun x => x.target = node.id := by
        rw [List.filter_filter]
        refine List.filter_congr fun x hx => ?_
        rw [← Bool.decide_and, decide_eq_decide]
        exact ⟨fun htarget => ⟨htarget, h.relation_eq hnodup hmem hx htarget ▸ hincoming⟩, And.left⟩
    _ = ((fileEntities createId file components).map EmittedNode.edge).filter fun x => x.target = node.id := by
        rw [h.edges, filter_entity_edges]
    _ = ((fileEntities createId file components).filter fun other =>
          other.id = node.id).map EmittedNode.edge := by
        rw [List.filter_map]
        rfl
    _ = [node.edge] := by
        rw [filter_eq_singleton (h.nodup_entities hnodup) hnode]
        rfl

/-- **The edges that lead to a description are those of the uses of its text.** -/
theorem EmitsFile.filter_target_description {text : String} {node : EmittedNode} (hnode : node ∈ e.nodes)
    (hincoming : node.incoming = "has_description") (hid : node.id = descriptionId createId file text)
    (hinj : ∀ use ∈ fileUses createId file components,
      descriptionId createId file use.text = descriptionId createId file text → use.text = text) :
    e.edges.filter (fun x => x.target = node.id) =
      ((fileUses createId file components).filter fun use => use.text = text).map (Use.edge createId file) := by
  calc e.edges.filter (fun x => x.target = node.id)
      = (e.edges.filter fun x => x.relation = "has_description").filter fun x => x.target = node.id := by
        rw [List.filter_filter]
        refine List.filter_congr fun x hx => ?_
        rw [← Bool.decide_and, decide_eq_decide]
        exact ⟨fun htarget => ⟨htarget, (h.relation_eq hnodup hnode hx htarget).trans hincoming⟩, And.left⟩
    _ = ((fileUses createId file components).map (Use.edge createId file)).filter fun x =>
          x.target = node.id := by
        rw [h.edges, filter_use_edges]
    _ = ((fileUses createId file components).filter fun use =>
          use.text = text).map (Use.edge createId file) := by
        rw [List.filter_map]
        congr 1
        refine List.filter_congr fun use huse => ?_
        rw [Function.comp_apply, decide_eq_decide, hid]
        exact ⟨hinj use huse, fun heq => congrArg (descriptionId createId file) heq⟩

/-! ## Edges that leave a node -/

theorem EmitsFile.disjoint_componentNodes {a b : Record × ℕ} (ha : a ∈ components.zipIdx)
    (hb : b ∈ components.zipIdx) (hne : a ≠ b) :
    List.Disjoint ((componentNodes createId file a).map EmittedNode.id)
      ((componentNodes createId file b).map EmittedNode.id) := by
  have hentities := h.nodup_entities hnodup
  rw [fileEntities, List.map_flatMap, List.nodup_flatMap] at hentities
  have hsymm : Std.Symm (Function.onFun List.Disjoint fun c : Record × ℕ =>
    (componentNodes createId file c).map EmittedNode.id) := ⟨fun _ _ hdisjoint _ ha hb => hdisjoint hb ha⟩
  exact hentities.2.forall ha hb hne

omit h hnodup in
theorem source_of_mem_componentEdges {c : Record × ℕ} {x : Edge} (hx : x ∈ componentEdges createId file c) :
    x.source = file ∨ x.source ∈ (componentNodes createId file c).map EmittedNode.id := by
  rcases mem_componentEdges.mp hx with (rfl | ⟨prop, -, rfl⟩) | ⟨use, huse, rfl⟩
  · exact Or.inl rfl
  · exact Or.inr (List.mem_map_of_mem (f := EmittedNode.id) (List.mem_cons_self ..))
  · exact Or.inr (entity_mem_componentNodes huse)

theorem EmitsFile.filter_source_of_mem {c : Record × ℕ} (hc : c ∈ components.zipIdx) {id : String}
    (hid : id ∈ (componentNodes createId file c).map EmittedNode.id) (hfile : id ≠ file) :
    e.edges.filter (fun x => x.source = id) =
      (componentEdges createId file c).filter fun x => x.source = id := by
  -- the edges of another component start at the file or at nodes of that component
  rw [h.edges, fileEdges, List.filter_flatMap]
  refine flatMap_eq_of_unique (List.Nodup.of_map _ (nodup_zipIdx_snd components)) hc fun b hb hne => ?_
  rw [List.filter_eq_nil_iff]
  intro x hx hsource
  rw [decide_eq_true_eq] at hsource
  rcases source_of_mem_componentEdges hx with heq | hmem
  · exact hfile (hsource.symm.trans heq)
  · exact h.disjoint_componentNodes hnodup hb hc hne hmem (hsource ▸ hid)

theorem EmitsFile.nodup_component {c : Record × ℕ} (hc : c ∈ components.zipIdx) :
    ((componentNodes createId file c).map EmittedNode.id).Nodup := by
  have hentities := h.nodup_entities hnodup
  rw [fileEntities, List.map_flatMap, List.nodup_flatMap] at hentities
  exact hentities.1 c hc

theorem EmitsFile.propId_ne {c : Record × ℕ} (hc : c ∈ components.zipIdx) {prop : Record}
    (hprop : prop ∈ propsOf c.1) :
    propId createId (seedAt file c) prop ≠ componentId createId file c := by
  have hcomponent := h.nodup_component hnodup hc
  rw [componentNodes, List.map_cons, List.nodup_cons, List.map_map] at hcomponent
  intro heq
  have hmem : propId createId (seedAt file c) prop ∈
      (propsOf c.1).map (propId createId (seedAt file c)) := List.mem_map_of_mem hprop
  rw [heq] at hmem
  exact hcomponent.1 hmem

omit h hnodup in
theorem filter_source_cons_of_eq {x : Edge} {id : String} (heq : x.source = id) (edges : List Edge) :
    (x :: edges).filter (fun y => y.source = id) = x :: edges.filter fun y => y.source = id :=
  List.filter_cons_of_pos (decide_eq_true heq)

omit h hnodup in
theorem filter_source_cons_of_ne {x : Edge} {id : String} (hne : x.source ≠ id) (edges : List Edge) :
    (x :: edges).filter (fun y => y.source = id) = edges.filter fun y => y.source = id :=
  List.filter_cons_of_neg fun hsource => hne (of_decide_eq_true hsource)

omit h hnodup in
theorem filter_source_uses_self (entity : String) (record : Record) :
    ((usesOf entity record).map (Use.edge createId file)).filter (fun x => x.source = entity) =
      (usesOf entity record).map (Use.edge createId file) := by
  rw [List.filter_eq_self]
  intro x hx
  obtain ⟨use, huse, rfl⟩ := List.mem_map.mp hx
  exact decide_eq_true (entity_of_mem_usesOf huse)

omit h hnodup in
theorem filter_source_uses_of_ne {entity id : String} (hne : entity ≠ id) (record : Record) :
    ((usesOf entity record).map (Use.edge createId file)).filter (fun x => x.source = id) = [] := by
  rw [List.filter_eq_nil_iff]
  intro x hx hsource
  obtain ⟨use, huse, rfl⟩ := List.mem_map.mp hx
  exact hne ((entity_of_mem_usesOf huse).symm.trans (of_decide_eq_true hsource))

omit h hnodup in
theorem map_target_uses (entity : String) (record : Record) :
    ((usesOf entity record).map (Use.edge createId file)).map Edge.target =
      (describedBy createId file record).toList := by
  rw [usesOf, describedBy]
  cases Record.text? record "description" <;> rfl

theorem EmitsFile.map_target_filter_source_component {c : Record × ℕ} (hc : c ∈ components.zipIdx)
    (hfile : componentId createId file c ≠ file) :
    (e.edges.filter fun x => x.source = componentId createId file c).map Edge.target =
      (componentNode createId file c).children := by
  have hprops : (propsOf c.1).flatMap (fun prop => (propEdges createId file (componentId createId file c)
      (seedAt file c) prop).filter fun x => x.source = componentId createId file c) =
        (propsOf c.1).map (propEdge createId (componentId createId file c) (seedAt file c)) := by
    rw [List.map_eq_flatMap]
    refine List.flatMap_congr fun prop hprop => ?_
    have hsource : (propEdge createId (componentId createId file c) (seedAt file c) prop).source =
      componentId createId file c := rfl
    rw [propEdges, filter_source_cons_of_eq hsource, propUses,
      filter_source_uses_of_ne (h.propId_ne hnodup hc hprop)]
  have hid : componentId createId file c ∈ (componentNodes createId file c).map EmittedNode.id :=
    List.mem_map_of_mem (List.mem_cons_self ..)
  have hedge : (componentEdge createId file c).source ≠ componentId createId file c := Ne.symm hfile
  rw [h.filter_source_of_mem hnodup hc hid hfile, componentEdges, filter_source_cons_of_ne hedge,
    List.filter_append, filter_source_uses_self, List.filter_flatMap, hprops, List.map_append,
    map_target_uses, List.map_map]
  rfl

theorem EmitsFile.map_target_filter_source_prop {c : Record × ℕ} (hc : c ∈ components.zipIdx) {prop : Record}
    (hprop : prop ∈ propsOf c.1) (hfile : propId createId (seedAt file c) prop ≠ file) :
    (e.edges.filter fun x => x.source = propId createId (seedAt file c) prop).map Edge.target =
      (propNode createId file (componentId createId file c) (seedAt file c) prop).children := by
  have hne := h.propId_ne hnodup hc hprop
  have hid : propId createId (seedAt file c) prop ∈ (componentNodes createId file c).map EmittedNode.id :=
    List.mem_map_of_mem (f := EmittedNode.id) (List.mem_cons_of_mem _ (List.mem_map_of_mem hprop))
  have hnodupProps : ((propsOf c.1).map (propId createId (seedAt file c))).Nodup := by
    have hcomponent := h.nodup_component hnodup hc
    rw [componentNodes, List.map_cons, List.nodup_cons, List.map_map] at hcomponent
    exact hcomponent.2
  have hprops : (propsOf c.1).flatMap (fun other => (propEdges createId file (componentId createId file c)
      (seedAt file c) other).filter fun x => x.source = propId createId (seedAt file c) prop) =
        (propUses createId (seedAt file c) prop).map (Use.edge createId file) := by
    rw [flatMap_eq_of_unique (List.Nodup.of_map _ hnodupProps) hprop]
    · rw [propEdges, filter_source_cons_of_ne (Ne.symm hne), propUses, filter_source_uses_self]
    · intro other hother hdiff
      have hids : propId createId (seedAt file c) other ≠ propId createId (seedAt file c) prop := fun heq =>
        hdiff (List.inj_on_of_nodup_map hnodupProps hother hprop heq)
      rw [propEdges, filter_source_cons_of_ne (Ne.symm hne), propUses, filter_source_uses_of_ne hids]
  have hedge : (componentEdge createId file c).source ≠ propId createId (seedAt file c) prop := Ne.symm hfile
  rw [h.filter_source_of_mem hnodup hc hid hfile, componentEdges, filter_source_cons_of_ne hedge,
    List.filter_append, filter_source_uses_of_ne (Ne.symm hne), List.filter_flatMap, hprops, List.append_nil,
    propUses, map_target_uses]
  rfl

/-- **The edges that leave a node lead to its children.** -/
theorem EmitsFile.map_target_filter_source {node : EmittedNode} (hnode : node ∈ e.nodes)
    (hfile : node.id ≠ file) :
    (e.edges.filter fun x => x.source = node.id).map Edge.target = node.children := by
  rcases h.mem_nodes.mp hnode with hentity | ⟨use, huse, rfl⟩
  · obtain ⟨c, hc, rfl | ⟨prop, hprop, rfl⟩⟩ := mem_fileEntities.mp hentity
    · exact h.map_target_filter_source_component hnodup hc hfile
    · exact h.map_target_filter_source_prop hnodup hc hprop hfile
  · rw [List.filter_eq_nil_iff.mpr]
    · rfl
    · intro x hx hsource
      rw [decide_eq_true_eq] at hsource
      rcases h.exists_source hx with heq | ⟨entity, hentity, hid⟩
      · exact hfile (hsource.symm.trans heq)
      · have hmem : entity ∈ e.nodes := h.mem_nodes.mpr (Or.inl hentity)
        have heq := List.inj_on_of_nodup_map hnodup hmem hnode (hid.trans hsource)
        have hdescription := not_isDescription hentity
        rw [heq] at hdescription
        exact Bool.noConfusion hdescription

end

end ComponentDocs

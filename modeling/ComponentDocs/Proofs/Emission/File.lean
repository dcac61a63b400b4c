import ComponentDocs.Proofs.Emission.Parts
import ComponentDocs.Proofs.Graph.Put

/-!
# The emission of a file

The nodes and edges that a file brings into a graph, as lists over its components.

* `fileEntities`, `fileEdges`, `fileUses`: the nodes of the entities, the edges, the uses of descriptions;
* **`emit_eq_schema`**: a file with an identifier whose props have names is emitted;
* `exists_target`, `exists_source`: where the edges of a file start and end;
* `leads_to_node`: every node is reached from the file;
* `eq_of_ends_eq`: no two edges lie between the same nodes if no two nodes have the same identifier;
* `nodup_names_record`, `nodup_names_attributes`: no field or attribute of a node is there twice;
* **`EmitsFile.rooted`**: the schema of a file hangs together below it.
-/

namespace ComponentDocs

section

variable (createId : String → String) (file : String) (components : List Record)

/-- The nodes of the components and props of a file. -/
def fileEntities : List EmittedNode := components.zipIdx.flatMap (componentNodes createId file)

/-- The edges of a file. -/
def fileEdges : List Edge := components.zipIdx.flatMap (componentEdges createId file)

/-- The uses of descriptions in a file. -/
def fileUses : List Use := components.zipIdx.flatMap (componentUses createId file)

/-- The emission holds what the components of a file bring. -/
def EmitsFile (emission : Emission) : Prop :=
  Emits createId file [] (fileUses createId file components) (fileEntities createId file components)
    (fileEdges createId file components) emission

end

/-- **A file with an identifier whose props have names is emitted.** -/
theorem emit_eq_schema (createId : String → String) {file : Record} (hfile : Fields.has file "id" = true)
    {components : List Record} (hnames : ∀ component ∈ components, PropsNamed component) :
    ∃ e, emit createId file components = .ok e.schema ∧
      EmitsFile createId (Record.get file "id").display components e := by
  have hknown : Knows (descriptionId createId (Record.get file "id").display) [] := knows_nil
  obtain ⟨e, he, hemits⟩ := emits_components hknown 0 hnames
  refine ⟨e, ?_, hemits⟩
  rw [emit, Record.requireText, Record.require_of_has hfile]
  dsimp only [Except.map, bind, Except.bind]
  rw [he]
  rfl

variable {createId : String → String} {file : String} {components : List Record}

/-! ## Members -/

theorem mem_fileEntities {node : EmittedNode} : node ∈ fileEntities createId file components ↔
    ∃ c ∈ components.zipIdx, node = componentNode createId file c ∨
      ∃ prop ∈ propsOf c.1,
        node = propNode createId file (componentId createId file c) (seedAt file c) prop := by
  simp only [fileEntities, componentNodes, List.mem_flatMap, List.mem_cons, List.mem_map, eq_comm]

theorem mem_componentEdges {c : Record × ℕ} {e : Edge} : e ∈ componentEdges createId file c ↔
    (e = componentEdge createId file c ∨
      ∃ prop ∈ propsOf c.1, e = propEdge createId (componentId createId file c) (seedAt file c) prop) ∨
    ∃ use ∈ componentUses createId file c, e = use.edge createId file := by
  simp only [componentEdges, componentUses, propEdges, List.mem_cons, List.mem_append, List.mem_flatMap,
    List.mem_map, eq_comm]
  constructor
  · rintro (h | ⟨prop, hprop, h | ⟨use, huse, h⟩⟩ | ⟨use, huse, h⟩)
    · exact Or.inl (Or.inl h)
    · exact Or.inl (Or.inr ⟨prop, hprop, h⟩)
    · exact Or.inr ⟨use, Or.inl ⟨prop, hprop, huse⟩, h⟩
    · exact Or.inr ⟨use, Or.inr huse, h⟩
  · rintro ((h | ⟨prop, hprop, h⟩) | ⟨use, ⟨prop, hprop, huse⟩ | huse, h⟩)
    · exact Or.inl h
    · exact Or.inr (Or.inl ⟨prop, hprop, Or.inl h⟩)
    · exact Or.inr (Or.inl ⟨prop, hprop, Or.inr ⟨use, huse, h⟩⟩)
    · exact Or.inr (Or.inr ⟨use, huse, h⟩)

theorem mem_fileEdges {e : Edge} : e ∈ fileEdges createId file components ↔
    (∃ c ∈ components.zipIdx, e = componentEdge createId file c ∨
      ∃ prop ∈ propsOf c.1, e = propEdge createId (componentId createId file c) (seedAt file c) prop) ∨
    ∃ use ∈ fileUses createId file components, e = use.edge createId file := by
  rw [fileEdges, List.mem_flatMap]
  constructor
  · rintro ⟨c, hc, he⟩
    rcases mem_componentEdges.mp he with he | ⟨use, huse, he⟩
    · exact Or.inl ⟨c, hc, he⟩
    · exact Or.inr ⟨use, List.mem_flatMap.mpr ⟨c, hc, huse⟩, he⟩
  · rintro (⟨c, hc, he⟩ | ⟨use, huse, he⟩)
    · exact ⟨c, hc, mem_componentEdges.mpr (Or.inl he)⟩
    · obtain ⟨c, hc, huse⟩ := List.mem_flatMap.mp huse
      exact ⟨c, hc, mem_componentEdges.mpr (Or.inr ⟨use, huse, he⟩)⟩

theorem entity_of_mem_usesOf {entity : String} {record : Record} {use : Use} (h : use ∈ usesOf entity record) :
    use.entity = entity := by
  obtain ⟨text, -, rfl⟩ := List.mem_map.mp h
  rfl

theorem entity_mem_componentNodes {c : Record × ℕ} {use : Use} (h : use ∈ componentUses createId file c) :
    use.entity ∈ (componentNodes createId file c).map EmittedNode.id := by
  rcases List.mem_append.mp h with h | h
  · obtain ⟨prop, hprop, huse⟩ := List.mem_flatMap.mp h
    rw [entity_of_mem_usesOf huse]
    exact List.mem_map_of_mem (f := EmittedNode.id) (List.mem_cons_of_mem _ (List.mem_map_of_mem hprop))
  · rw [entity_of_mem_usesOf h]
    exact List.mem_map_of_mem (f := EmittedNode.id) (List.mem_cons_self ..)

theorem exists_entity {use : Use} (h : use ∈ fileUses createId file components) :
    ∃ node ∈ fileEntities createId file components, node.id = use.entity := by
  obtain ⟨c, hc, huse⟩ := List.mem_flatMap.mp h
  obtain ⟨node, hnode, hid⟩ := List.mem_map.mp (entity_mem_componentNodes huse)
  exact ⟨node, List.mem_flatMap.mpr ⟨c, hc, hnode⟩, hid⟩

/-! ## Nodes and edges -/

section

variable {e : Emission} (h : EmitsFile createId file components e)
include h

theorem EmitsFile.mem_nodes {node : EmittedNode} : node ∈ e.nodes ↔
    node ∈ fileEntities createId file components ∨
      ∃ use ∈ Use.first (fileUses createId file components), node = use.node createId file := by
  have hdescriptions : node ∈ e.nodes.filter (·.isDescription) ↔
      ∃ use ∈ Use.first (fileUses createId file components), node = use.node createId file := by
    rw [h.descriptions, newUses_nil_left, List.mem_map]
    simp only [eq_comm]
  rw [← hdescriptions, ← h.entities, List.mem_filter, List.mem_filter]
  cases node.isDescription <;> simp

theorem EmitsFile.exists_description {use : Use} (huse : use ∈ fileUses createId file components) :
    ∃ other ∈ Use.first (fileUses createId file components), other.text = use.text ∧
      other.node createId file ∈ e.nodes := by
  have htext : use.text ∈ Use.texts (Use.first (fileUses createId file components)) :=
    Use.mem_texts_first.mpr (List.mem_map_of_mem huse)
  obtain ⟨other, hother, heq⟩ := List.mem_map.mp htext
  exact ⟨other, hother, heq, h.mem_nodes.mpr (Or.inr ⟨other, hother, rfl⟩)⟩

omit h in
/-- The relation of the edges that lead to a node. -/
def EmittedNode.incoming : EmittedNode → String
  | component .. => "has_component"
  | prop .. => "has_prop"
  | description .. => "has_description"

/-- Every edge leads to a node, and its relation is that of the node. -/
theorem EmitsFile.exists_target {x : Edge} (hx : x ∈ e.edges) :
    ∃ node ∈ e.nodes, node.id = x.target ∧ node.incoming = x.relation := by
  rw [h.edges] at hx
  rcases mem_fileEdges.mp hx with ⟨c, hc, rfl | ⟨prop, hprop, rfl⟩⟩ | ⟨use, huse, rfl⟩
  · exact ⟨_, h.mem_nodes.mpr (Or.inl (mem_fileEntities.mpr ⟨c, hc, Or.inl rfl⟩)), rfl, rfl⟩
  · exact ⟨_, h.mem_nodes.mpr (Or.inl (mem_fileEntities.mpr ⟨c, hc, Or.inr ⟨prop, hprop, rfl⟩⟩)), rfl, rfl⟩
  · obtain ⟨other, -, htext, hnode⟩ := h.exists_description huse
    exact ⟨_, hnode, congrArg (descriptionId createId file) htext, rfl⟩

theorem EmitsFile.exists_source {x : Edge} (hx : x ∈ e.edges) :
    x.source = file ∨ ∃ node ∈ fileEntities createId file components, node.id = x.source := by
  rw [h.edges] at hx
  rcases mem_fileEdges.mp hx with ⟨c, hc, rfl | ⟨prop, hprop, rfl⟩⟩ | ⟨use, huse, rfl⟩
  · exact Or.inl rfl
  · exact Or.inr ⟨_, mem_fileEntities.mpr ⟨c, hc, Or.inl rfl⟩, rfl⟩
  · exact Or.inr (exists_entity huse)

theorem EmitsFile.leads_to_entity {node : EmittedNode} (hnode : node ∈ fileEntities createId file components) :
    Leads e.edges file node.id := by
  obtain ⟨c, hc, hnode⟩ := mem_fileEntities.mp hnode
  have hedge : componentEdge createId file c ∈ e.edges := by
    rw [h.edges]
    exact mem_fileEdges.mpr (Or.inl ⟨c, hc, Or.inl rfl⟩)
  have hcomponent : Leads e.edges file (componentId createId file c) :=
    Leads.snoc Relation.ReflTransGen.refl hedge
  rcases hnode with rfl | ⟨prop, hprop, rfl⟩
  · exact hcomponent
  · have hprop : propEdge createId (componentId createId file c) (seedAt file c) prop ∈ e.edges := by
      rw [h.edges]
      exact mem_fileEdges.mpr (Or.inl ⟨c, hc, Or.inr ⟨prop, hprop, rfl⟩⟩)
    exact hcomponent.snoc hprop

/-- **Every node is reached from the file.** -/
theorem EmitsFile.leads_to_node {node : EmittedNode} (hnode : node ∈ e.nodes) : Leads e.edges file node.id := by
  rcases h.mem_nodes.mp hnode with hnode | ⟨use, hfirst, rfl⟩
  · exact h.leads_to_entity hnode
  · have huse : use ∈ fileUses createId file components := Use.mem_of_mem_first hfirst
    obtain ⟨node, hnode, hid⟩ := exists_entity huse
    have hedge : use.edge createId file ∈ e.edges := by
      rw [h.edges]
      exact mem_fileEdges.mpr (Or.inr ⟨use, huse, rfl⟩)
    have hentity := h.leads_to_entity hnode
    rw [hid] at hentity
    exact hentity.snoc hedge

omit h in
theorem Emission.ids_schema (e : Emission) : e.schema.ids = e.nodes.map EmittedNode.id := List.map_map ..

omit h in
theorem mem_ids_schema {node : EmittedNode} (hnode : node ∈ e.nodes) : node.id ∈ e.schema.ids := by
  rw [e.ids_schema]
  exact List.mem_map_of_mem hnode

theorem EmitsFile.source_mem {x : Edge} (hx : x ∈ e.edges) : x.source = file ∨ x.source ∈ e.schema.ids := by
  refine (h.exists_source hx).imp_right ?_
  rintro ⟨node, hnode, hid⟩
  rw [← hid]
  exact mem_ids_schema (h.mem_nodes.mpr (Or.inl hnode))

theorem EmitsFile.target_mem {x : Edge} (hx : x ∈ e.edges) : x.target ∈ e.schema.ids := by
  obtain ⟨node, hnode, hid, -⟩ := h.exists_target hx
  rw [← hid]
  exact mem_ids_schema hnode

theorem EmitsFile.leads {id : String} (hid : id ∈ e.schema.ids) : Leads e.edges file id := by
  rw [e.ids_schema] at hid
  obtain ⟨node, hnode, rfl⟩ := List.mem_map.mp hid
  exact h.leads_to_node hnode

theorem EmitsFile.eq_of_ends_eq (hnodup : (e.nodes.map EmittedNode.id).Nodup) {x y : Edge} (hx : x ∈ e.edges)
    (hy : y ∈ e.edges) (hends : x.ends = y.ends) : x = y := by
  obtain ⟨a, ha, haid, harel⟩ := h.exists_target hx
  obtain ⟨b, hb, hbid, hbrel⟩ := h.exists_target hy
  obtain ⟨hsource, htarget⟩ := Graph.ends_eq_iff.mp hends
  have hab : a = b := List.inj_on_of_nodup_map hnodup ha hb (by rw [haid, hbid, htarget])
  have hrelation : x.relation = y.relation := by rw [← harel, ← hbrel, hab]
  cases x
  cases y
  rw [Edge.mk.injEq]
  exact ⟨hsource, htarget, hrelation⟩

end

/-! ## Attributes -/

theorem nodup_names_attributes {record : Record} (h : (Fields.names record).Nodup) :
    (Fields.names (attributes record)).Nodup := by
  have hnames : Fields.names (attributes record) = Fields.names (Fields.erase record "id") := List.map_map ..
  rw [hnames]
  exact h.sublist (List.Sublist.map _ List.filter_sublist)

/-- The fields of the components and props of a file have distinct names. -/
def FieldsDistinct (component : Record) : Prop :=
  (Fields.names component).Nodup ∧ ∀ prop ∈ propsOf component, (Fields.names prop).Nodup

theorem EmitsFile.nodup_names_record {e : Emission} (h : EmitsFile createId file components e)
    (hfields : ∀ component ∈ components, FieldsDistinct component) {node : EmittedNode}
    (hnode : node ∈ e.nodes) :
    (Fields.names node.record).Nodup := by
  rcases h.mem_nodes.mp hnode with hnode | ⟨use, -, rfl⟩
  · obtain ⟨c, hc, hnode⟩ := mem_fileEntities.mp hnode
    obtain ⟨hcomponent, hprops⟩ := hfields c.1 (List.fst_mem_of_mem_zipIdx hc)
    rcases hnode with rfl | ⟨prop, hprop, rfl⟩
    · exact Fields.nodup_names_merge (hcomponent.sublist (List.Sublist.map _ List.filter_sublist)) _
    · exact Fields.nodup_names_merge (hprops prop hprop) _
  · exact (by decide : ["id", "parent", "children", "text", "internal"].Nodup)

/-- **The schema of a file hangs together below it.** -/
theorem EmitsFile.rooted {e : Emission} (h : EmitsFile createId file components e)
    (hfields : ∀ component ∈ components, FieldsDistinct component) : e.schema.Rooted file := by
  refine ⟨fun x => h.source_mem, fun x => h.target_mem, fun id => h.leads, ?_, ?_⟩
  · intro hnodup x hx y hy
    exact h.eq_of_ends_eq (e.ids_schema ▸ hnodup) hx hy
  · intro node hnode
    obtain ⟨emitted, hemitted, rfl⟩ := List.mem_map.mp hnode
    exact nodup_names_attributes (h.nodup_names_record hfields hemitted)

end ComponentDocs

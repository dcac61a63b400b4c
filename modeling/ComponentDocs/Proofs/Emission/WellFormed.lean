import ComponentDocs.Proofs.Emission.Edges

/-!
# Well-formed schemas

What is emitted for a file hangs together: its nodes, their fields and the edges say the same.

* `EmittedNode.get?_parent`, `get?_children`, `get?_link`: the fields of a node in its record;
* `fileTexts`, `fileSeeds`: the description texts and the seeds of a file;
* `nodup_ids`: different seeds with different identifiers give different nodes;
* `Schema.WellFormed`: what the fields of nodes and the edges have to do with each other;
* **`emit_wellFormed`**: the schema of a file is well formed.
-/

namespace ComponentDocs

/-! ## Fields of nodes -/

/-- The name of the type of a node. -/
def SchemaNode.type? (node : SchemaNode) : Option String :=
  Record.text? (Record.object node.fields "internal") "type"

/-- The node is that of a component or a prop. -/
def SchemaNode.IsEntity (node : SchemaNode) : Prop :=
  node.type? = some "ComponentMetadata" ∨ node.type? = some "ComponentProp"

/-- The node is that of a description with a text. -/
def SchemaNode.Describes (text : String) (node : SchemaNode) : Prop :=
  node.type? = some "ComponentDescription" ∧ Record.text? node.fields "text" = some text

instance (node : SchemaNode) : Decidable node.IsEntity := inferInstanceAs (Decidable (_ ∨ _))

instance (text : String) (node : SchemaNode) : Decidable (node.Describes text) :=
  inferInstanceAs (Decidable (_ ∧ _))

namespace EmittedNode

/-- A field of a node itself is not that of what it stands for. -/
theorem get?_merge_own {payload own : Record} {key : String} {value : Json}
    (h : Fields.get? own.reverse key = some value) :
    Fields.get? (Fields.merge payload own) key = some value := by
  rw [Fields.get?_merge, h]
  rfl

theorem get?_parent (node : EmittedNode) : Fields.get? node.record "parent" = some (.str node.parent) := by
  cases node with
  | component id parent digest payload props text => cases text <;> exact get?_merge_own rfl
  | prop id parent digest payload text => cases text <;> exact get?_merge_own rfl
  | description id parent digest text => rfl

theorem get?_children (node : EmittedNode) :
    Fields.get? node.record "children" = some (idList node.children) := by
  cases node with
  | component id parent digest payload props text => cases text <;> exact get?_merge_own rfl
  | prop id parent digest payload text => cases text <;> exact get?_merge_own rfl
  | description id parent digest text => rfl

theorem get?_link {node : EmittedNode} {id : String} (h : node.described = some id) :
    Fields.get? node.record "description___NODE" = some (.str id) := by
  cases node with
  | component _ parent digest payload props text =>
    obtain rfl : text = some id := h
    exact get?_merge_own rfl
  | prop _ parent digest payload text =>
    obtain rfl : text = some id := h
    exact get?_merge_own rfl
  | description _ parent digest text => exact absurd h (by simp [described])

/-- The digest of the content of a node. -/
def digest : EmittedNode → String
  | component _ _ digest _ _ _ => digest
  | prop _ _ digest _ _ => digest
  | description _ _ digest _ => digest

theorem get?_internal (node : EmittedNode) :
    ∃ internal, Fields.get? node.record "internal" = some (.obj internal) ∧
      Record.text? internal "type" = some node.type ∧
      Fields.get? internal "content_digest" = some (.str node.digest) := by
  cases node with
  | component id parent digest payload props text =>
    refine ⟨[("type", .str "ComponentMetadata"), ("content_digest", .str digest)], ?_, rfl, rfl⟩
    cases text <;> exact get?_merge_own rfl
  | prop id parent digest payload text =>
    refine ⟨[("type", .str "ComponentProp"), ("content_digest", .str digest)], ?_, rfl, rfl⟩
    cases text <;> exact get?_merge_own rfl
  | description id parent digest text => exact ⟨_, rfl, rfl, rfl⟩

theorem type?_toSchemaNode (node : EmittedNode) : node.toSchemaNode.type? = some node.type := by
  obtain ⟨internal, hinternal, htype, -⟩ := node.get?_internal
  rw [SchemaNode.type?, toSchemaNode, Record.object, hinternal]
  exact htype

theorem isEntity_iff (node : EmittedNode) : node.toSchemaNode.IsEntity ↔ node.isDescription = false := by
  rw [SchemaNode.IsEntity, type?_toSchemaNode]
  cases node <;> simp [type, isDescription]

theorem type?_eq_iff (node : EmittedNode) :
    node.toSchemaNode.type? = some "ComponentDescription" ↔ node.isDescription = true := by
  rw [type?_toSchemaNode]
  cases node <;> simp [type, isDescription]

end EmittedNode

/-! ## Texts and seeds -/

/-- The description texts of a component, those of its props first. -/
def componentTexts (component : Record) : List String :=
  (propsOf component ++ [component]).flatMap fun record => (Record.text? record "description").toList

/-- The description texts of a file in the order in which they are used. -/
def fileTexts (components : List Record) : List String := components.flatMap componentTexts

/-- The seeds of a file. -/
def fileSeeds (file : String) (components : List Record) : List String :=
  entitySeeds file components ++ descriptionSeeds file (fileTexts components)

variable {createId : String → String} {file : String} {components : List Record}

theorem texts_usesOf (entity : String) (record : Record) :
    (usesOf entity record).map Use.text = (Record.text? record "description").toList := by
  rw [usesOf, List.map_map]
  exact List.map_id _

theorem texts_fileUses : Use.texts (fileUses createId file components) = fileTexts components := by
  have hcomponent : ∀ c : Record × ℕ, (componentUses createId file c).map Use.text = componentTexts c.1 := by
    intro c
    rw [componentUses, componentTexts, List.map_append, List.map_flatMap, texts_usesOf, List.flatMap_append,
      List.flatMap_singleton]
    simp only [propUses, texts_usesOf]
  rw [Use.texts, fileUses, fileTexts, List.map_flatMap]
  simp only [hcomponent]
  rw [← List.flatMap_map Prod.fst componentTexts, List.zipIdx_map_fst]

theorem text_ne_empty {record : Record} {key text : String} (h : Record.text? record key = some text) :
    text ≠ "" := by
  rintro rfl
  rw [Record.text?, Option.bind_eq_some_iff] at h
  obtain ⟨value, hvalue, hstr⟩ := h
  obtain ⟨-, hfilled⟩ := Option.filter_eq_some_iff.mp hvalue
  cases value <;> simp [Json.str?, Json.isEmptyValue] at hstr hfilled
  exact hfilled hstr

/-! ## Identifiers -/

section

variable {e : Emission} (h : EmitsFile createId file components e)
include h

theorem EmitsFile.ids_perm : (e.nodes.map EmittedNode.id).Perm
    ((entitySeeds file components ++
      descriptionSeeds file (Use.texts (Use.first (fileUses createId file components)))).map createId) := by
  have hdescriptions : (e.nodes.filter (·.isDescription)).map EmittedNode.id =
      (descriptionSeeds file (Use.texts (Use.first (fileUses createId file components)))).map createId := by
    rw [h.descriptions, newUses_nil_left, descriptionSeeds, Use.texts, List.map_map, List.map_map, List.map_map]
    rfl
  rw [List.map_append, ← hdescriptions, ← map_id_fileEntities, ← h.entities, ← List.map_append]
  refine List.Perm.map _ (List.Perm.trans ?_ List.perm_append_comm)
  exact (List.filter_append_perm _ e.nodes).symm

omit h in
theorem seeds_subset_fileSeeds : entitySeeds file components ++
    descriptionSeeds file (Use.texts (Use.first (fileUses createId file components))) ⊆
      fileSeeds file components := by
  refine List.append_subset.mpr ⟨List.subset_append_left .., List.subset_append_of_subset_right _ ?_⟩
  refine List.map_subset _ fun text htext => ?_
  rwa [Use.mem_texts_first, texts_fileUses] at htext

/-- **Different seeds with different identifiers give different nodes.** -/
theorem EmitsFile.nodup_ids (hprops : ∀ component ∈ components, PropsDistinct component)
    (hinj : ∀ a ∈ fileSeeds file components, ∀ b ∈ fileSeeds file components, createId a = createId b → a = b)
    (hdigest : ∀ a ∈ fileTexts components, ∀ b ∈ fileTexts components,
      contentDigest (.str a) = contentDigest (.str b) → a = b) : (e.nodes.map EmittedNode.id).Nodup := by
  have htexts : ∀ text ∈ Use.texts (Use.first (fileUses createId file components)),
      text ∈ fileTexts components := by
    intro text htext
    rwa [Use.mem_texts_first, texts_fileUses] at htext
  have hseeds : (entitySeeds file components ++ descriptionSeeds file _).Nodup :=
    nodup_fileSeeds hprops (Use.nodup_texts_first (fileUses createId file components))
      fun a ha b hb => hdigest a (htexts a ha) b (htexts b hb)
  refine h.ids_perm.nodup_iff.mpr (hseeds.map_on fun a ha b hb => ?_)
  exact hinj a (seeds_subset_fileSeeds ha) b (seeds_subset_fileSeeds hb)

theorem EmitsFile.id_ne_source {source : String}
    (hsource : ∀ a ∈ fileSeeds file components, createId a ≠ source)
    {node : EmittedNode} (hnode : node ∈ e.nodes) : node.id ≠ source := by
  obtain ⟨seed, hseed, hid⟩ :=
    List.mem_map.mp (h.ids_perm.subset (List.mem_map_of_mem (f := EmittedNode.id) hnode))
  exact hid ▸ hsource seed (seeds_subset_fileSeeds hseed)

end

/-! ## Well-formed schemas -/

/-- The schema is well formed below a source with entities, which have identifiers and records. -/
structure Schema.WellFormed (source : String) (entities : Fields Record) (schema : Schema) : Prop where
  /-- The nodes and the source have different identifiers. -/
  nodup : (source :: schema.ids).Nodup
  /-- There is a node for each entity, and all other nodes are those of descriptions. -/
  entities_perm : ((schema.nodes.filter fun node => node.IsEntity).map SchemaNode.id).Perm
    (Fields.names entities)
  types : ∀ node ∈ schema.nodes, node.IsEntity ∨ node.type? = some "ComponentDescription"
  /-- Edges start at the source or at a node, and lead to a node. -/
  source_mem : ∀ e ∈ schema.edges, e.source = source ∨ e.source ∈ schema.ids
  target_mem : ∀ e ∈ schema.edges, e.target ∈ schema.ids
  /-- Every node is reached from the source. -/
  leads : ∀ id ∈ schema.ids, Leads schema.edges source id
  /-- One edge leads to an entity, and it starts at the parent. -/
  parent : ∀ node ∈ schema.nodes, node.IsEntity → ∃ e, schema.edges.filter (fun e => e.target = node.id) = [e] ∧
    Record.get node.fields "parent" = .str e.source
  /-- The children of a node are what the edges that leave it lead to. -/
  children : ∀ node ∈ schema.nodes, Record.get node.fields "children" =
    EmittedNode.idList ((schema.edges.filter fun e => e.source = node.id).map Edge.target)
  /-- Every text that entities have has one description, which belongs to the first of them; an edge leads to it
  from each of them, and they have a link to it. -/
  described : ∀ text, (∃ entity ∈ entities, Record.text? entity.2 "description" = some text) →
    ∃ d, schema.nodes.filter (fun node => node.Describes text) = [d] ∧
      (∃ first, entities.find? (fun entity => Record.text? entity.2 "description" = some text) = some first ∧
        Record.get d.fields "parent" = .str first.1) ∧
      schema.edges.filter (fun e => e.target = d.id) =
        (entities.filter fun entity => Record.text? entity.2 "description" = some text).map
          (fun entity => ⟨entity.1, d.id, "has_description"⟩) ∧
      ∀ entity ∈ entities, Record.text? entity.2 "description" = some text →
        ∃ node ∈ schema.nodes, node.id = entity.1 ∧ Record.get node.fields "description___NODE" = .str d.id
  /-- Every description is that of a text that an entity has. -/
  used : ∀ node ∈ schema.nodes, node.type? = some "ComponentDescription" →
    ∃ entity ∈ entities, ∃ text, Record.text? entity.2 "description" = some text ∧ node.Describes text
  /-- No edge leads from an entity without a text to a description. -/
  undescribed : ∀ entity ∈ entities, Record.text? entity.2 "description" = none →
    ∀ e ∈ schema.edges, e.source = entity.1 → e.relation ≠ "has_description"

/-! ## The schema of a file -/

theorem mem_usesOf {entity : String} {record : Record} {use : Use} :
    use ∈ usesOf entity record ↔ use.entity = entity ∧ Record.text? record "description" = some use.text := by
  rw [usesOf, List.mem_map]
  constructor
  · rintro ⟨text, htext, rfl⟩
    exact ⟨rfl, Option.mem_toList.mp htext⟩
  · rintro ⟨rfl, htext⟩
    exact ⟨use.text, Option.mem_toList.mpr htext, rfl⟩

theorem exists_record {use : Use} (huse : use ∈ fileUses createId file components) :
    ∃ entity ∈ fileRecords createId file components,
      use.entity = entity.1 ∧ Record.text? entity.2 "description" = some use.text := by
  rw [fileUses_eq] at huse
  obtain ⟨entity, hentity, huse⟩ := List.mem_flatMap.mp huse
  exact ⟨entity, hentity, mem_usesOf.mp huse⟩

theorem exists_node {entity : String × Record} (h : entity ∈ fileRecords createId file components) :
    ∃ node ∈ fileEntities createId file components, node.id = entity.1 ∧
      node.described = describedBy createId file entity.2 := by
  obtain ⟨c, hc, hentity⟩ := List.mem_flatMap.mp h
  rcases List.mem_append.mp hentity with hentity | hcomponent
  · obtain ⟨prop, hprop, rfl⟩ := List.mem_map.mp hentity
    exact ⟨_, mem_fileEntities.mpr ⟨c, hc, Or.inr ⟨prop, hprop, rfl⟩⟩, rfl, rfl⟩
  · rw [List.mem_singleton.mp hcomponent]
    exact ⟨_, mem_fileEntities.mpr ⟨c, hc, Or.inl rfl⟩, rfl, rfl⟩

theorem describes_node_iff {use : Use} (huse : use ∈ fileUses createId file components) (text : String) :
    (use.node createId file).toSchemaNode.Describes text ↔ use.text = text := by
  obtain ⟨entity, -, -, htext⟩ := exists_record huse
  have hnode : Record.text? (use.node createId file).record "text" = some use.text := by
    have hfilled : (!(Json.str use.text).isEmptyValue) = true := by
      simpa [Json.isEmptyValue] using text_ne_empty htext
    have hget : Fields.get? (use.node createId file).record "text" = some (.str use.text) := rfl
    rw [Record.text?, Record.filled?, hget, Option.filter_some, if_pos hfilled]
    rfl
  rw [SchemaNode.Describes, and_iff_right ((EmittedNode.type?_eq_iff _).mpr rfl)]
  exact Iff.trans (Eq.congr_left hnode) Option.some_inj

section

variable {e : Emission} (h : EmitsFile createId file components e)
include h

theorem EmitsFile.filter_isEntity : e.schema.nodes.filter (fun node => node.IsEntity) =
    (fileEntities createId file components).map EmittedNode.toSchemaNode := by
  rw [Emission.schema, List.filter_map, ← h.entities]
  congr 1
  refine List.filter_congr fun node _ => ?_
  rw [Function.comp_apply, Bool.eq_iff_iff, decide_eq_true_eq, EmittedNode.isEntity_iff, Bool.not_eq_true']

theorem EmitsFile.filter_describes (text : String) : e.schema.nodes.filter (fun node => node.Describes text) =
    (((fileUses createId file components).filter fun use => use.text = text).take 1).map
      fun use => (use.node createId file).toSchemaNode := by
  calc e.schema.nodes.filter (fun node => node.Describes text)
      = ((e.nodes.filter (·.isDescription)).filter fun node => node.toSchemaNode.Describes text).map
          EmittedNode.toSchemaNode := by
        rw [Emission.schema, List.filter_map, List.filter_filter]
        congr 1
        refine List.filter_congr fun node _ => ?_
        rw [Function.comp_apply, Bool.eq_iff_iff, Bool.and_eq_true, decide_eq_true_eq]
        exact ⟨fun hnode => ⟨hnode, (EmittedNode.type?_eq_iff node).mp hnode.1⟩, And.left⟩
    _ = ((Use.first (fileUses createId file components)).filter fun use => use.text = text).map
          fun use => (use.node createId file).toSchemaNode := by
        rw [h.descriptions, newUses_nil_left, List.filter_map, List.map_map]
        congr 1
        refine List.filter_congr fun use huse => ?_
        rw [Function.comp_apply, decide_eq_decide]
        exact describes_node_iff (Use.mem_of_mem_first huse) text
    _ = _ := by rw [Use.first_filter_text]

variable (hnodup : (e.nodes.map EmittedNode.id).Nodup)
  (hinj : ∀ a ∈ fileTexts components, ∀ b ∈ fileTexts components,
    descriptionId createId file a = descriptionId createId file b → a = b)
include hnodup

theorem EmitsFile.nodup_records : (Fields.names (fileRecords createId file components)).Nodup :=
  names_fileRecords_perm.nodup_iff.mpr (h.nodup_entities hnodup)

include hinj in
/-- **A text that entities have has one description, which belongs to the first of them and which all have.** -/
theorem EmitsFile.described {text : String}
    (htext : ∃ entity ∈ fileRecords createId file components, Record.text? entity.2 "description" = some text) :
    ∃ d, e.schema.nodes.filter (fun node => node.Describes text) = [d] ∧
      (∃ first, (fileRecords createId file components).find?
          (fun entity => Record.text? entity.2 "description" = some text) = some first ∧
        Record.get d.fields "parent" = .str first.1) ∧
      e.schema.edges.filter (fun x => x.target = d.id) =
        ((fileRecords createId file components).filter fun entity =>
          Record.text? entity.2 "description" = some text).map
            (fun entity => ⟨entity.1, d.id, "has_description"⟩) ∧
      ∀ entity ∈ fileRecords createId file components, Record.text? entity.2 "description" = some text →
        ∃ node ∈ e.schema.nodes, node.id = entity.1 ∧
          Record.get node.fields "description___NODE" = .str d.id := by
  have huses : (fileUses createId file components).filter (fun use => use.text = text) = _ :=
    filter_text_fileUses text
  cases hfilter : (fileRecords createId file components).filter fun entity =>
    Record.text? entity.2 "description" = some text with
  | nil =>
    obtain ⟨entity, hentity, hhas⟩ := htext
    exact absurd (decide_eq_true hhas) (List.filter_eq_nil_iff.mp hfilter entity hentity)
  | cons first rest =>
    rw [hfilter, List.map_cons] at huses
    have hfirst : (⟨first.1, text⟩ : Use) ∈ Use.first (fileUses createId file components) :=
      Use.mem_first_of_filter_text huses
    have hnode : (Use.mk first.1 text).node createId file ∈ e.nodes := h.mem_nodes.mpr (Or.inr ⟨_, hfirst, rfl⟩)
    have htexts : Use.texts (fileUses createId file components) = fileTexts components := texts_fileUses
    have hfile : text ∈ fileTexts components := by
      rw [← htexts, ← Use.mem_texts_first]
      exact List.mem_map_of_mem hfirst
    refine ⟨((Use.mk first.1 text).node createId file).toSchemaNode, ?_, ⟨first, ?_, ?_⟩, ?_, ?_⟩
    · rw [h.filter_describes, huses]
      rfl
    · rw [← List.head?_filter, hfilter]
      rfl
    · exact Record.get_of_get? (EmittedNode.get?_parent ((Use.mk first.1 text).node createId file))
    · have hedges := h.filter_target_description hnodup hnode rfl rfl fun use huse heq =>
        hinj use.text (htexts ▸ List.mem_map_of_mem huse) text hfile heq
      rw [huses, List.map_cons, List.map_map] at hedges
      exact hedges
    · intro entity hentity hhas
      obtain ⟨node, hnode, hid, hdescribed⟩ := exists_node hentity
      rw [describedBy, hhas] at hdescribed
      refine ⟨node.toSchemaNode, List.mem_map_of_mem (h.mem_nodes.mpr (Or.inl hnode)), hid, ?_⟩
      exact Record.get_of_get? (EmittedNode.get?_link hdescribed)

theorem EmitsFile.undescribed {entity : String × Record}
    (hentity : entity ∈ fileRecords createId file components)
    (hnone : Record.text? entity.2 "description" = none) {x : Edge} (hx : x ∈ e.edges)
    (hsource : x.source = entity.1) : x.relation ≠ "has_description" := by
  intro hrelation
  have hmem : x ∈ (fileEdges createId file components).filter fun x => x.relation = "has_description" :=
    List.mem_filter.mpr ⟨h.edges ▸ hx, decide_eq_true hrelation⟩
  rw [filter_use_edges] at hmem
  obtain ⟨use, huse, rfl⟩ := List.mem_map.mp hmem
  obtain ⟨other, hother, hid, htext⟩ := exists_record huse
  have heq : other = entity :=
    List.inj_on_of_nodup_map (h.nodup_records hnodup) hother hentity (hid.symm.trans hsource)
  rw [heq, hnone] at htext
  exact absurd htext.symm (Option.some_ne_none _)

include hinj in
/-- **What is emitted for a file is well formed.** -/
theorem EmitsFile.wellFormed (hsource : ∀ node ∈ e.nodes, node.id ≠ file) :
    e.schema.WellFormed file (fileRecords createId file components) := by
  refine ⟨?_, ?_, ?_, fun x => h.source_mem, fun x => h.target_mem, fun id => h.leads, ?_, ?_,
    fun text => h.described hnodup hinj, ?_, ?_⟩
  · rw [List.nodup_cons, e.ids_schema]
    refine ⟨fun hfile => ?_, hnodup⟩
    obtain ⟨node, hnode, hid⟩ := List.mem_map.mp hfile
    exact hsource node hnode hid
  · rw [h.filter_isEntity, List.map_map]
    exact names_fileRecords_perm.symm
  · intro node hnode
    obtain ⟨emitted, -, rfl⟩ := List.mem_map.mp hnode
    rw [EmittedNode.isEntity_iff, EmittedNode.type?_eq_iff]
    cases emitted.isDescription <;> simp
  · intro node hnode hentity
    have hfilter : node ∈ e.schema.nodes.filter fun node => node.IsEntity :=
      List.mem_filter.mpr ⟨hnode, decide_eq_true hentity⟩
    rw [h.filter_isEntity] at hfilter
    obtain ⟨emitted, hemitted, rfl⟩ := List.mem_map.mp hfilter
    exact ⟨_, h.filter_target_entity hnodup hemitted, Record.get_of_get? (EmittedNode.get?_parent _)⟩
  · intro node hnode
    obtain ⟨emitted, hemitted, rfl⟩ := List.mem_map.mp hnode
    have htargets := h.map_target_filter_source hnodup hemitted (hsource emitted hemitted)
    exact (Record.get_of_get? (EmittedNode.get?_children _)).trans (congrArg EmittedNode.idList htargets.symm)
  · intro node hnode htype
    obtain ⟨emitted, hemitted, rfl⟩ := List.mem_map.mp hnode
    have hdescription := (EmittedNode.type?_eq_iff emitted).mp htype
    rcases h.mem_nodes.mp hemitted with hentity | ⟨use, huse, rfl⟩
    · rw [not_isDescription hentity] at hdescription
      exact Bool.noConfusion hdescription
    · have huse := Use.mem_of_mem_first huse
      obtain ⟨entity, hentity, -, htext⟩ := exists_record huse
      exact ⟨entity, hentity, use.text, htext, (describes_node_iff huse use.text).mpr rfl⟩
  · intro entity hentity hnone x hx hsource
    exact h.undescribed hnodup hentity hnone hx hsource

end

/-- **The schema of a file is well formed** if the props of each component have different names, the identifiers
of its seeds are different and not that of the file, and its description texts have different digests. -/
theorem emit_wellFormed (createId : String → String) {file : Record} (hfile : Fields.has file "id" = true)
    {components : List Record} (hprops : ∀ component ∈ components, PropsDistinct component)
    (hinj : ∀ a ∈ fileSeeds (Record.get file "id").display components,
      ∀ b ∈ fileSeeds (Record.get file "id").display components, createId a = createId b → a = b)
    (hsource : ∀ a ∈ fileSeeds (Record.get file "id").display components,
      createId a ≠ (Record.get file "id").display)
    (hdigest : ∀ a ∈ fileTexts components, ∀ b ∈ fileTexts components,
      contentDigest (.str a) = contentDigest (.str b) → a = b) :
    ∃ schema, emit createId file components = .ok schema ∧
      schema.WellFormed (Record.get file "id").display
        (fileRecords createId (Record.get file "id").display components) := by
  obtain ⟨e, he, h⟩ := emit_eq_schema createId hfile fun component hcomponent => (hprops component hcomponent).1
  refine ⟨e.schema, he, h.wellFormed (h.nodup_ids hprops hinj hdigest) (fun a ha b hb heq => ?_)
    fun node => h.id_ne_source hsource⟩
  have hseed : ∀ text ∈ fileTexts components, descriptionSeed (Record.get file "id").display
      (contentDigest (.str text)) ∈ fileSeeds (Record.get file "id").display components := fun text htext =>
    List.mem_append_right _
      (List.mem_map_of_mem (f := fun text => descriptionSeed _ (contentDigest (.str text))) htext)
  exact hdigest a ha b hb (digest_eq_of_descriptionSeed_eq (hinj _ (hseed a ha) _ (hseed b hb) heq))

/-- A component that shares its description with one of its two props. -/
def sampleComponents : List Record :=
  [[("displayName", .str "Box"), ("description", .str "Words"),
    ("props", .arr [.obj [("name", .str "size"), ("description", .str "Words")],
      .obj [("name", .str "color"), ("description", .str "More words")]])]]

theorem emit_sampleComponents : ∃ schema, emit nodeId [("id", .str "a")] sampleComponents = .ok schema ∧
    schema.WellFormed "a" (fileRecords nodeId "a" sampleComponents) := by
  have hprops : ∀ component ∈ sampleComponents, PropsDistinct component := by
    unfold PropsDistinct PropsNamed
    decide +kernel
  have hseeds : (∀ a ∈ fileSeeds "a" sampleComponents, ∀ b ∈ fileSeeds "a" sampleComponents,
      nodeId a = nodeId b → a = b) ∧ ∀ a ∈ fileSeeds "a" sampleComponents, nodeId a ≠ "a" := by decide +kernel
  have hdigest : ∀ a ∈ fileTexts sampleComponents, ∀ b ∈ fileTexts sampleComponents,
      contentDigest (.str a) = contentDigest (.str b) → a = b := by decide +kernel
  exact emit_wellFormed nodeId rfl hprops hseeds.1 hseeds.2 hdigest

end ComponentDocs

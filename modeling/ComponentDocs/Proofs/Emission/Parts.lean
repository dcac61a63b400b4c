import ComponentDocs.Proofs.Emission.Use

/-!
# Parts of an emission

What every step of an emission adds to the nodes and edges, as lists over the components and props alone.

* `propNode`, `componentNode`, `Use.node`: the nodes; `propEdges`, `componentEdges`, `Use.edge`: the edges;
* `Emits`: what an emission adds where some texts are known; `Emits.append`: one after another;
* `emits_description`, `emits_prop`, `emits_component`: what the steps add;
* **`emits_components`**: what the components of a file add.
-/

namespace ComponentDocs

theorem Record.get_of_get? {record : Record} {key : String} {value : Json}
    (h : Fields.get? record key = some value) : Record.get record key = value := by
  rw [Record.get, h, Option.getD_some]

theorem Record.require_of_has {record : Record} {key : String} (h : Fields.has record key = true) :
    Record.require record key = .ok (Record.get record key) := by
  obtain ⟨value, hget⟩ := Option.isSome_iff_exists.mp h
  rw [Record.require, hget, Record.get_of_get? hget]

/-- The node stands for a description. -/
def EmittedNode.isDescription : EmittedNode → Bool
  | description .. => true
  | _ => false

/-- The props of a component. -/
def propsOf (component : Record) : List Record := (Record.list component "props").map Json.fields

/-- The use of a description by an entity with a record, none if the record has no description. -/
def usesOf (entity : String) (record : Record) : List Use :=
  (Record.text? record "description").toList.map (Use.mk entity)

section

variable (createId : String → String) (file : String)

/-! ## Descriptions -/

/-- The identifier of the description with a text. -/
def descriptionId (text : String) : String := createId (descriptionSeed file (contentDigest (.str text)))

/-- The identifier of the description of a record. -/
def describedBy (record : Record) : Option String :=
  (Record.text? record "description").map (descriptionId createId file)

/-- The node that the first use of a text brings. -/
def Use.node (use : Use) : EmittedNode :=
  .description (descriptionId createId file use.text) use.entity (contentDigest (.str use.text)) use.text

/-- The edge of a use. -/
def Use.edge (use : Use) : Edge := ⟨use.entity, descriptionId createId file use.text, "has_description"⟩

/-! ## Props -/

/-- The identifier of a prop of the component with a seed. -/
def propId (seed : String) (prop : Record) : String := createId (propSeed seed (Record.get prop "name"))

/-- The node of a prop of the component with an identifier and a seed. -/
def propNode (component seed : String) (prop : Record) : EmittedNode :=
  .prop (propId createId seed prop) component (contentDigest (.obj prop)) prop (describedBy createId file prop)

/-- The edge to a prop. -/
def propEdge (component seed : String) (prop : Record) : Edge :=
  ⟨component, propId createId seed prop, "has_prop"⟩

/-- The use of a description by a prop. -/
def propUses (seed : String) (prop : Record) : List Use := usesOf (propId createId seed prop) prop

/-- The edges of a prop. -/
def propEdges (component seed : String) (prop : Record) : List Edge :=
  propEdge createId component seed prop :: (propUses createId seed prop).map (Use.edge createId file)

/-! ## Components -/

/-- The seed of the component at an index. -/
def seedAt (component : Record × ℕ) : String := componentSeed file component.2 component.1

/-- The identifier of the component at an index. -/
def componentId (component : Record × ℕ) : String := createId (seedAt file component)

/-- The node of the component at an index. -/
def componentNode (component : Record × ℕ) : EmittedNode :=
  .component (componentId createId file component) file (contentDigest (.obj component.1))
    (Fields.erase component.1 "props")
    ((propsOf component.1).map (propId createId (seedAt file component)))
    (describedBy createId file component.1)

/-- The edge to the component at an index. -/
def componentEdge (component : Record × ℕ) : Edge :=
  ⟨file, componentId createId file component, "has_component"⟩

/-- The uses of descriptions by the component at an index and its props, the props first. -/
def componentUses (component : Record × ℕ) : List Use :=
  (propsOf component.1).flatMap (propUses createId (seedAt file component)) ++
    usesOf (componentId createId file component) component.1

/-- The nodes of the component at an index and its props. -/
def componentNodes (component : Record × ℕ) : List EmittedNode :=
  componentNode createId file component :: (propsOf component.1).map
    (propNode createId file (componentId createId file component) (seedAt file component))

/-- The edges of the component at an index and its props. -/
def componentEdges (component : Record × ℕ) : List Edge :=
  componentEdge createId file component :: ((propsOf component.1).flatMap
    (propEdges createId file (componentId createId file component) (seedAt file component)) ++
      (usesOf (componentId createId file component) component.1).map (Use.edge createId file))

/-! ## Steps -/

/-- Where some texts are known, an emission adds nodes of entities, the nodes of the new texts among those
that are used, and edges. -/
structure Emits (known : Fields String) (uses : List Use) (entities : List EmittedNode) (edges : List Edge)
    (emission : Emission) : Prop where
  entities : emission.nodes.filter (!·.isDescription) = entities
  descriptions : emission.nodes.filter (·.isDescription) = (newUses known uses).map (Use.node createId file)
  edges : emission.edges = edges
  texts : emission.texts = learn (descriptionId createId file) known uses

variable {createId file}

theorem Emits.nil (known : Fields String) : Emits createId file known [] [] [] ⟨[], [], known⟩ :=
  ⟨rfl, rfl, rfl, (List.append_nil known).symm⟩

/-- One emission after another adds what both add. -/
theorem Emits.append {known : Fields String} {uses more : List Use} {entities others : List EmittedNode}
    {edges rest : List Edge} {a b : Emission} (ha : Emits createId file known uses entities edges a)
    (hb : Emits createId file a.texts more others rest b) :
    Emits createId file known (uses ++ more) (entities ++ others) (edges ++ rest) (a.append b) := by
  obtain ⟨hentities, hdescriptions, hedges, htexts⟩ := hb
  rw [ha.texts] at hdescriptions htexts
  refine ⟨?_, ?_, ?_, ?_⟩
  · rw [Emission.append, List.filter_append, ha.entities, hentities]
  · rw [Emission.append, List.filter_append, ha.descriptions, hdescriptions, ← List.map_append,
      ← newUses_append]
  · rw [Emission.append, ha.edges, hedges]
  · rw [Emission.append, htexts, learn_append]

theorem Emits.cons {known : Fields String} {uses : List Use} {entities : List EmittedNode} {edges : List Edge}
    {emission : Emission} (h : Emits createId file known uses entities edges emission) (node : EmittedNode)
    (hnode : node.isDescription = false) (edge : Edge) :
    Emits createId file known uses (node :: entities) (edge :: edges)
      ⟨node :: emission.nodes, edge :: emission.edges, emission.texts⟩ := by
  refine ⟨?_, ?_, congrArg (edge :: ·) h.edges, h.texts⟩
  · rw [List.filter_cons_of_pos (by rw [hnode]; rfl), h.entities]
  · rw [List.filter_cons_of_neg (by rw [hnode]; decide), h.descriptions]

theorem Emits.knows {known : Fields String} {uses : List Use} {entities : List EmittedNode} {edges : List Edge}
    {emission : Emission} (h : Emits createId file known uses entities edges emission)
    (hknown : Knows (descriptionId createId file) known) :
    Knows (descriptionId createId file) emission.texts := by
  rw [h.texts]
  exact hknown.learn uses

variable {known : Fields String}

theorem emits_description (hknown : Knows (descriptionId createId file) known) (entity : String)
    (record : Record) :
    (emitDescription createId file entity (Record.text? record "description") known).1 =
        describedBy createId file record ∧
      Emits createId file known (usesOf entity record) [] ((usesOf entity record).map (Use.edge createId file))
        (emitDescription createId file entity (Record.text? record "description") known).2 := by
  rw [describedBy, usesOf]
  cases Record.text? record "description" with
  | none => exact ⟨rfl, Emits.nil known⟩
  | some text =>
    have huse : (some text).toList.map (Use.mk entity) = [⟨entity, text⟩] := rfl
    rw [emitDescription, huse]
    cases hget : Fields.get? known text with
    | some id =>
      -- the text is known, and its identifier is the one that a new node would get
      have hnew : newUses known [⟨entity, text⟩] = [] :=
        List.filter_cons_of_neg (by simp [Fields.has, hget])
      refine ⟨congrArg some (hknown text id hget), rfl, ?_, ?_, ?_⟩
      · rw [hnew]
        rfl
      · rw [hknown text id hget]
        rfl
      · rw [learn, hnew]
        exact (List.append_nil known).symm
    | none =>
      have hnew : newUses known [⟨entity, text⟩] = [⟨entity, text⟩] :=
        List.filter_cons_of_pos (by simp [Fields.has, hget])
      refine ⟨rfl, rfl, ?_, rfl, ?_⟩
      · rw [hnew]
        rfl
      · rw [learn, hnew]
        rfl

theorem emits_prop (hknown : Knows (descriptionId createId file) known) (component seed : String)
    {prop : Record} (hname : Fields.has prop "name" = true) :
    ∃ e, emitProp createId file component seed prop known = .ok (propId createId seed prop, e) ∧
      Emits createId file known (propUses createId seed prop) [propNode createId file component seed prop]
        (propEdges createId file component seed prop) e := by
  obtain ⟨hdescribed, hemits⟩ := emits_description hknown (propId createId seed prop) prop
  refine ⟨_, ?_, hemits.cons (propNode createId file component seed prop) rfl _⟩
  rw [emitProp, Record.require_of_has hname, propNode, ← hdescribed]
  rfl

theorem emits_props (hknown : Knows (descriptionId createId file) known) (component seed : String)
    {props : List Record} (hnames : ∀ prop ∈ props, Fields.has prop "name" = true) :
    ∃ e, emitProps createId file component seed known props = .ok (props.map (propId createId seed), e) ∧
      Emits createId file known (props.flatMap (propUses createId seed))
        (props.map (propNode createId file component seed))
        (props.flatMap (propEdges createId file component seed)) e := by
  induction props generalizing known with
  | nil => exact ⟨_, rfl, Emits.nil known⟩
  | cons prop props ih =>
    obtain ⟨first, hfirst, hemits⟩ := emits_prop hknown component seed (hnames prop (List.mem_cons_self ..))
    obtain ⟨others, hothers, hrest⟩ := ih (hemits.knows hknown) fun other hother =>
      hnames other (List.mem_cons_of_mem _ hother)
    refine ⟨first.append others, ?_, hemits.append hrest⟩
    rw [emitProps, hfirst]
    dsimp only [bind, Except.bind]
    rw [hothers]
    rfl

/-- Every prop of a component has a name. -/
def PropsNamed (component : Record) : Prop := ∀ prop ∈ propsOf component, Fields.has prop "name" = true

theorem emits_component (hknown : Knows (descriptionId createId file) known) (index : ℕ) {component : Record}
    (hnames : PropsNamed component) :
    ∃ e, emitComponent createId file index component known = .ok e ∧
      Emits createId file known (componentUses createId file (component, index))
        (componentNodes createId file (component, index))
        (componentEdges createId file (component, index)) e := by
  obtain ⟨below, hbelow, hprops⟩ := emits_props hknown (componentId createId file (component, index))
    (componentSeed file index component) hnames
  obtain ⟨hdescribed, hemits⟩ :=
    emits_description (hprops.knows hknown) (componentId createId file (component, index)) component
  have happend := hprops.append hemits
  rw [List.append_nil] at happend
  refine ⟨_, ?_, happend.cons (componentNode createId file (component, index)) rfl
    (componentEdge createId file (component, index))⟩
  rw [emitComponent]
  dsimp only [bind, Except.bind]
  rw [componentId, seedAt, propsOf] at hbelow
  dsimp only at hbelow
  rw [hbelow, componentNode, ← hdescribed]
  rfl

/-- **What the components of a file add.** -/
theorem emits_components (hknown : Knows (descriptionId createId file) known) (index : ℕ)
    {components : List Record} (hnames : ∀ component ∈ components, PropsNamed component) :
    ∃ e, emitComponents createId file index known components = .ok e ∧
      Emits createId file known ((components.zipIdx index).flatMap (componentUses createId file))
        ((components.zipIdx index).flatMap (componentNodes createId file))
        ((components.zipIdx index).flatMap (componentEdges createId file)) e := by
  induction components generalizing known index with
  | nil => exact ⟨_, rfl, Emits.nil known⟩
  | cons component components ih =>
    obtain ⟨first, hfirst, hemits⟩ := emits_component hknown index (hnames component (List.mem_cons_self ..))
    obtain ⟨others, hothers, hrest⟩ := ih (hemits.knows hknown) (index + 1) fun other hother =>
      hnames other (List.mem_cons_of_mem _ hother)
    refine ⟨first.append others, ?_, hemits.append hrest⟩
    rw [emitComponents, hfirst]
    dsimp only [bind, Except.bind]
    rw [hothers]
    rfl

end

end ComponentDocs

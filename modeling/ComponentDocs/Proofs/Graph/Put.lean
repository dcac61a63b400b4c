import ComponentDocs.Graph.Schema
import ComponentDocs.Proofs.Graph.Reach

/-!
# Adding and taking out

* `mem_nodes_remove`, `mem_edges_remove`: what is left without some nodes;
* `get?_putNode`, `putNode_nil_of_mem`: a node that is put, and one that is there already;
* `mem_putAmong`, `map_ends_putAmong`: an edge takes the place of one between the same nodes;
* `Agree`: no two edges lie between the same nodes, `mem_foldl_putAmong`: such edges are all kept;
* **`nodes_addSchema`**, **`mem_edges_addSchema`**: a schema of new nodes is added as it is;
* `Schema.Rooted`: a schema that hangs together below a file.
-/

namespace ComponentDocs

/-- The nodes that an edge lies between. -/
def Edge.ends (e : Edge) : String × String := (e.source, e.target)

namespace Schema

/-- The identifiers of the nodes. -/
def ids (schema : Schema) : List String := schema.nodes.map SchemaNode.id

/-- The nodes with their attributes. -/
def entries (schema : Schema) : Fields Record := schema.nodes.map fun node => (node.id, attributes node.fields)

theorem names_entries (schema : Schema) : Fields.names schema.entries = schema.ids := List.map_map ..

end Schema

namespace Graph

variable {g : Graph}

/-! ## Taking out -/

theorem mem_nodes_remove {ids : List String} {x : String} {attrs : Record} :
    (x, attrs) ∈ (g.remove ids).nodes ↔ (x, attrs) ∈ g.nodes ∧ x ∉ ids := by
  unfold remove
  rw [List.mem_filter, Bool.not_eq_true', ← Bool.not_eq_true, List.contains_iff_mem]

theorem mem_edges_remove {ids : List String} {e : Edge} :
    e ∈ (g.remove ids).edges ↔ e ∈ g.edges ∧ e.source ∉ ids ∧ e.target ∉ ids := by
  unfold remove
  rw [List.mem_filter, Bool.and_eq_true, Bool.not_eq_true', ← Bool.not_eq_true, Bool.not_eq_true',
    ← Bool.not_eq_true, List.contains_iff_mem, List.contains_iff_mem]

theorem removeFileNodes_sublist (g : Graph) (file : String) :
    ((g.removeFileNodes file).1.nodes.Sublist g.nodes) ∧ (g.removeFileNodes file).1.edges.Sublist g.edges := by
  rw [removeFileNodes]
  split_ifs
  · exact ⟨List.filter_sublist, List.filter_sublist⟩
  · exact ⟨List.Sublist.refl _, List.Sublist.refl _⟩

/-! ## Nodes -/

theorem get?_putNode (g : Graph) (id : String) (attrs : Record) (x : String) :
    Fields.get? (g.putNode id attrs).nodes x =
      if x = id then some (Fields.merge ((Fields.get? g.nodes id).getD []) attrs)
      else Fields.get? g.nodes x := by
  rw [putNode, Fields.get?_modify]

theorem ids_putNode (g : Graph) (id : String) (attrs : Record) :
    (g.putNode id attrs).ids = if id ∈ g.ids then g.ids else g.ids ++ [id] := by
  rw [ids, putNode, Fields.names_modify]
  rfl

theorem nodup_ids_putNode (h : g.ids.Nodup) (id : String) (attrs : Record) : (g.putNode id attrs).ids.Nodup :=
  Fields.nodup_names_set h ..

theorem mem_ids_putNode (g : Graph) (id : String) (attrs : Record) {x : String} :
    x ∈ (g.putNode id attrs).ids ↔ x = id ∨ x ∈ g.ids := by
  rw [ids_putNode]
  split_ifs with h
  · exact ⟨Or.inr, fun hx => hx.elim (fun heq => heq ▸ h) fun hx => hx⟩
  · rw [List.mem_append, List.mem_singleton, or_comm]

theorem mem_putNode (h : g.ids.Nodup) {id x : String} {attrs new : Record} :
    (x, attrs) ∈ (g.putNode id new).nodes ↔
      if x = id then Fields.merge ((Fields.get? g.nodes id).getD []) new = attrs else (x, attrs) ∈ g.nodes := by
  rw [Fields.mem_iff_get? (nodup_ids_putNode h id new), get?_putNode, Fields.mem_iff_get? h]
  split_ifs
  · exact Option.some_inj
  · exact Iff.rfl

theorem putNode_nil_of_mem {id : String} (h : id ∈ g.ids) : g.putNode id [] = g := by
  obtain ⟨attrs, hattrs⟩ : ∃ attrs, Fields.get? g.nodes id = some attrs := by
    rw [← Option.ne_none_iff_exists', Ne, Fields.get?_eq_none_iff, not_not]
    exact h
  have hnodes : (g.putNode id []).nodes = g.nodes := by
    rw [putNode, Fields.modify, hattrs]
    exact Fields.set_of_get? hattrs
  cases g
  rw [Graph.mk.injEq]
  exact ⟨hnodes, rfl⟩

theorem putNode_of_notMem {id : String} (h : id ∉ g.ids) {attrs : Record}
    (hattrs : (Fields.names attrs).Nodup) :
    g.putNode id attrs = { g with nodes := g.nodes ++ [(id, attrs)] } := by
  have hnone : Fields.get? g.nodes id = none := Fields.get?_eq_none_iff.mpr h
  rw [putNode, Fields.modify, hnone, Option.getD_none, Fields.merge_nil_left hattrs, Fields.set_of_notMem h]

/-- **New nodes come at the end with their own attributes.** -/
theorem foldl_putNode {nodes : List SchemaNode} (hnodup : (g.ids ++ nodes.map SchemaNode.id).Nodup)
    (hattrs : ∀ node ∈ nodes, (Fields.names (attributes node.fields)).Nodup) :
    nodes.foldl (fun g node => g.putNode node.id (attributes node.fields)) g =
      { g with nodes := g.nodes ++ nodes.map fun node => (node.id, attributes node.fields) } := by
  induction nodes generalizing g with
  | nil => rw [List.foldl_nil, List.map_nil, List.append_nil]
  | cons node nodes ih =>
    have hnew : node.id ∉ g.ids := fun hmem =>
      (List.nodup_append.mp hnodup).2.2 _ hmem _ (List.mem_cons_self ..) rfl
    rw [List.foldl_cons, putNode_of_notMem hnew (hattrs node (List.mem_cons_self ..)), ih]
    · simp only [List.append_assoc]
      rfl
    · have hids : ids { g with nodes := g.nodes ++ [(node.id, attributes node.fields)] } = g.ids ++ [node.id] :=
        List.map_append ..
      rw [hids, List.append_assoc]
      exact hnodup
    · exact fun other hother => hattrs other (List.mem_cons_of_mem _ hother)

/-! ## Edges -/

theorem putEdge_of_mem {e : Edge} (hsource : e.source ∈ g.ids) (htarget : e.target ∈ g.ids) :
    g.putEdge e = { g with edges := putAmong e g.edges } := by
  rw [putEdge, putNode_nil_of_mem hsource, putNode_nil_of_mem htarget]

theorem foldl_putEdge {new : List Edge} (hends : ∀ e ∈ new, e.source ∈ g.ids ∧ e.target ∈ g.ids) :
    new.foldl putEdge g = { g with edges := new.foldl (fun edges e => putAmong e edges) g.edges } := by
  induction new generalizing g with
  | nil => rfl
  | cons e new ih =>
    obtain ⟨hsource, htarget⟩ := hends e (List.mem_cons_self ..)
    rw [List.foldl_cons, putEdge_of_mem hsource htarget, ih]
    · rfl
    · exact fun f hf => hends f (List.mem_cons_of_mem _ hf)

theorem ends_eq_iff {e f : Edge} : e.ends = f.ends ↔ e.source = f.source ∧ e.target = f.target := by
  rw [Edge.ends, Edge.ends, Prod.mk.injEq]

theorem map_ends_putAmong (e : Edge) (edges : List Edge) : (putAmong e edges).map Edge.ends =
    if e.ends ∈ edges.map Edge.ends then edges.map Edge.ends else edges.map Edge.ends ++ [e.ends] := by
  induction edges with
  | nil => rfl
  | cons f edges ih =>
    rw [putAmong]
    simp only [← ends_eq_iff]
    by_cases hf : f.ends = e.ends
    · rw [if_pos hf, List.map_cons, List.map_cons, hf, if_pos (List.mem_cons_self ..)]
    · rw [if_neg hf, List.map_cons, List.map_cons, ih]
      by_cases he : e.ends ∈ edges.map Edge.ends
      · rw [if_pos he, if_pos (List.mem_cons_of_mem _ he)]
      · rw [if_neg he, if_neg fun h => (List.mem_cons.mp h).elim (fun heq => hf heq.symm) he]
        rfl

/-- An edge takes the place of the one between the same nodes. -/
theorem mem_putAmong {e x : Edge} {edges : List Edge} (hnodup : (edges.map Edge.ends).Nodup) :
    x ∈ putAmong e edges ↔ x = e ∨ x ∈ edges ∧ x.ends ≠ e.ends := by
  induction edges with
  | nil => simp [putAmong]
  | cons f edges ih =>
    rw [List.map_cons, List.nodup_cons] at hnodup
    rw [putAmong]
    simp only [← ends_eq_iff]
    by_cases hf : f.ends = e.ends
    · rw [if_pos hf, List.mem_cons, List.mem_cons]
      refine or_congr_right ⟨fun hx => ⟨Or.inr hx, fun heq => ?_⟩, fun hx => ?_⟩
      · exact hnodup.1 (hf.trans heq.symm ▸ List.mem_map_of_mem hx)
      · exact hx.1.resolve_left fun heq => hx.2 (heq ▸ hf)
    · rw [if_neg hf, List.mem_cons, List.mem_cons, ih hnodup.2]
      constructor
      · rintro (rfl | rfl | hx)
        · exact Or.inr ⟨Or.inl rfl, hf⟩
        · exact Or.inl rfl
        · exact Or.inr ⟨Or.inr hx.1, hx.2⟩
      · rintro (rfl | ⟨rfl | hx, hne⟩)
        · exact Or.inr (Or.inl rfl)
        · exact Or.inl rfl
        · exact Or.inr (Or.inr ⟨hx, hne⟩)

theorem nodup_ends_putAmong {edges : List Edge} (h : (edges.map Edge.ends).Nodup) (e : Edge) :
    ((putAmong e edges).map Edge.ends).Nodup := by
  rw [map_ends_putAmong]
  split_ifs with he
  · exact h
  · exact List.nodup_append.mpr ⟨h, List.nodup_singleton _, fun a ha b hb => by
      rw [List.mem_singleton.mp hb]
      exact fun heq => he (heq ▸ ha)⟩

theorem nodup_ends_foldl_putAmong {old : List Edge} (h : (old.map Edge.ends).Nodup) (new : List Edge) :
    ((new.foldl (fun edges e => putAmong e edges) old).map Edge.ends).Nodup := by
  induction new generalizing old with
  | nil => exact h
  | cons e new ih => exact ih (nodup_ends_putAmong h e)

/-- Two edges between the same nodes are one. -/
def Agree (old new : List Edge) : Prop := ∀ e ∈ new, ∀ f, f ∈ old ∨ f ∈ new → f.ends = e.ends → f = e

/-- **Edges that agree with those there are all kept.** -/
theorem mem_foldl_putAmong {old new : List Edge} (hnodup : (old.map Edge.ends).Nodup) (hagree : Agree old new)
    {x : Edge} : x ∈ new.foldl (fun edges e => putAmong e edges) old ↔ x ∈ old ∨ x ∈ new := by
  induction new generalizing old with
  | nil => simp
  | cons e new ih =>
    have hput : ∀ {y}, y ∈ putAmong e old ↔ y = e ∨ y ∈ old := by
      intro y
      rw [mem_putAmong hnodup]
      refine ⟨Or.imp_right And.left, ?_⟩
      rintro (rfl | hy)
      · exact Or.inl rfl
      · by_cases hends : y.ends = e.ends
        · exact Or.inl (hagree e (List.mem_cons_self ..) y (Or.inl hy) hends)
        · exact Or.inr ⟨hy, hends⟩
    rw [List.foldl_cons, ih (nodup_ends_putAmong hnodup e), hput, List.mem_cons]
    · tauto
    · intro f hf y hy
      refine hagree f (List.mem_cons_of_mem _ hf) y ?_
      rcases hy with hy | hy
      · rcases hput.mp hy with rfl | hy
        · exact Or.inr (List.mem_cons_self ..)
        · exact Or.inl hy
      · exact Or.inr (List.mem_cons_of_mem _ hy)

end Graph

/-! ## Schemas -/

/-- The schema hangs together below a file: its edges start at the file or at nodes of the schema and lead to
nodes of the schema, all of which are reached, no two edges lie between the same nodes if the identifiers are
distinct, and no attribute of a node is there twice. -/
structure Schema.Rooted (file : String) (schema : Schema) : Prop where
  source_mem : ∀ e ∈ schema.edges, e.source = file ∨ e.source ∈ schema.ids
  target_mem : ∀ e ∈ schema.edges, e.target ∈ schema.ids
  leads : ∀ id ∈ schema.ids, Leads schema.edges file id
  eq_of_ends : schema.ids.Nodup → ∀ e ∈ schema.edges, ∀ f ∈ schema.edges, e.ends = f.ends → e = f
  distinct : ∀ node ∈ schema.nodes, (Fields.names (attributes node.fields)).Nodup

namespace Graph

section

variable {g : Graph} {schema : Schema} (hnodup : (g.ids ++ schema.ids).Nodup)
  (hattrs : ∀ node ∈ schema.nodes, (Fields.names (attributes node.fields)).Nodup)
  (hends : ∀ e ∈ schema.edges, (e.source ∈ g.ids ∨ e.source ∈ schema.ids) ∧ e.target ∈ schema.ids)
include hnodup hattrs hends

theorem addSchema_of_new : g.addSchema schema =
    ⟨g.nodes ++ schema.entries, schema.edges.foldl (fun edges e => putAmong e edges) g.edges⟩ := by
  rw [addSchema, foldl_putNode hnodup hattrs]
  refine foldl_putEdge fun e he => ?_
  have hids : ids { g with nodes := g.nodes ++ schema.entries } = g.ids ++ schema.ids := by
    rw [ids, Fields.names, List.map_append]
    exact congrArg (g.ids ++ ·) schema.names_entries
  change e.source ∈ ids { g with nodes := g.nodes ++ schema.entries } ∧
    e.target ∈ ids { g with nodes := g.nodes ++ schema.entries }
  rw [hids, List.mem_append, List.mem_append]
  exact ⟨(hends e he).1, Or.inr (hends e he).2⟩

/-- **The nodes of a schema of new nodes come at the end with their own attributes.** -/
theorem nodes_addSchema : (g.addSchema schema).nodes = g.nodes ++ schema.entries := by
  rw [addSchema_of_new hnodup hattrs hends]

/-- **The edges of a schema join those of the graph.** -/
theorem mem_edges_addSchema (hedges : (g.edges.map Edge.ends).Nodup) (hagree : Agree g.edges schema.edges)
    {x : Edge} : x ∈ (g.addSchema schema).edges ↔ x ∈ g.edges ∨ x ∈ schema.edges := by
  rw [addSchema_of_new hnodup hattrs hends]
  exact mem_foldl_putAmong hedges hagree

theorem nodup_ends_addSchema (hedges : (g.edges.map Edge.ends).Nodup) :
    ((g.addSchema schema).edges.map Edge.ends).Nodup := by
  rw [addSchema_of_new hnodup hattrs hends]
  exact nodup_ends_foldl_putAmong hedges _

end

end Graph

end ComponentDocs

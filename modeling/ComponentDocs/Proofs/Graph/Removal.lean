import ComponentDocs.Proofs.Graph.Apart

/-!
# Taking out what a file brought

What edges lead to from a node is taken out, and nothing else, in any graph whatever its circles.

* `WellFormed`: every node is there once and edges lie between nodes; `WellFormed.replaceFileNodes`: additions and
  removals keep it;
* `nodup_descendants`, `WellFormed.descendants_subset`: the descendants are nodes, each once;
* `TakesOut`: a graph without what a node leads to, and with all the rest;
* **`removeFileNodes_takesOut`**: this is what is left, a second removal finds nothing, and an unknown node takes out
  nothing.
-/

namespace ComponentDocs

/-- Edges lead from `a` to `b`, at least one. -/
def LeadsOn (edges : List Edge) : String → String → Prop := Relation.TransGen (Joined edges)

theorem leads_iff_leadsOn {edges : List Edge} {a b : String} (h : b ≠ a) : Leads edges a b ↔ LeadsOn edges a b :=
  Relation.reflTransGen_iff_eq_or_transGen.trans (or_iff_right h)

namespace Graph

variable {g : Graph}

/-! ## Graphs whose edges lie between nodes -/

/-- Every node is there once, and the ends of every edge are nodes. -/
structure WellFormed (g : Graph) : Prop where
  nodup_ids : g.ids.Nodup
  ends_mem : ∀ e ∈ g.edges, e.source ∈ g.ids ∧ e.target ∈ g.ids

theorem WellFormed.closed (h : g.WellFormed) : g.Closed := fun e he => (h.ends_mem e he).2

theorem wellFormed_empty : empty.WellFormed := ⟨List.nodup_nil, fun _ he => absurd he List.not_mem_nil⟩

theorem WellFormed.putNode (h : g.WellFormed) (id : String) (attrs : Record) : (g.putNode id attrs).WellFormed := by
  refine ⟨nodup_ids_putNode h.nodup_ids id attrs, fun e he => ?_⟩
  obtain ⟨hsource, htarget⟩ := h.ends_mem e he
  exact ⟨(mem_ids_putNode g id attrs).mpr (Or.inr hsource), (mem_ids_putNode g id attrs).mpr (Or.inr htarget)⟩

theorem WellFormed.putEdge (h : g.WellFormed) (e : Edge) : (g.putEdge e).WellFormed := by
  have hended := (h.putNode e.source []).putNode e.target []
  refine ⟨hended.nodup_ids, fun other hother => ?_⟩
  rcases mem_or_eq_of_mem_putAmong hother with rfl | hother
  · exact ⟨(mem_ids_putNode ..).mpr (Or.inr ((mem_ids_putNode ..).mpr (Or.inl rfl))),
      (mem_ids_putNode ..).mpr (Or.inl rfl)⟩
  · exact hended.ends_mem other hother

theorem WellFormed.addSchema (h : g.WellFormed) (schema : Schema) : (g.addSchema schema).WellFormed := by
  have hnodes : ∀ nodes : List SchemaNode,
      (nodes.foldl (fun g node => g.putNode node.id (attributes node.fields)) g).WellFormed := by
    intro nodes
    induction nodes using List.reverseRecOn with
    | nil => exact h
    | append_singleton nodes node ih =>
      rw [List.foldl_append]
      exact ih.putNode node.id (attributes node.fields)
  unfold Graph.addSchema
  induction schema.edges using List.reverseRecOn with
  | nil => exact hnodes schema.nodes
  | append_singleton edges e ih =>
    rw [List.foldl_append]
    exact ih.putEdge e

theorem mem_ids_remove {ids : List String} {x : String} : x ∈ (g.remove ids).ids ↔ x ∈ g.ids ∧ x ∉ ids := by
  simp only [Graph.ids, Fields.names, List.mem_map, Prod.exists, exists_and_right, exists_eq_right, mem_nodes_remove]

theorem WellFormed.remove (h : g.WellFormed) (ids : List String) : (g.remove ids).WellFormed := by
  refine ⟨h.nodup_ids.sublist (List.filter_sublist.map Prod.fst), fun e he => ?_⟩
  obtain ⟨hedge, hsource, htarget⟩ := mem_edges_remove.mp he
  obtain ⟨hsourceId, htargetId⟩ := h.ends_mem e hedge
  exact ⟨mem_ids_remove.mpr ⟨hsourceId, hsource⟩, mem_ids_remove.mpr ⟨htargetId, htarget⟩⟩

theorem WellFormed.removeFileNodes (h : g.WellFormed) (file : String) : (g.removeFileNodes file).1.WellFormed := by
  rw [Graph.removeFileNodes]
  split_ifs
  · exact h.remove _
  · exact h

/-- **A graph stays well formed when a file is replaced.** -/
theorem WellFormed.replaceFileNodes (h : g.WellFormed) (id : String) (file : Record) (schema : Schema) :
    (g.replaceFileNodes id file schema).WellFormed :=
  ((h.removeFileNodes id).putNode id (fileAttributes file)).addSchema schema

/-! ## Descendants -/

/-- Every round finds new nodes, each once. -/
theorem nodup_spread {rounds : ℕ} {found : List String} (h : found.Nodup) : (g.spread rounds found).Nodup := by
  induction rounds generalizing found with
  | zero => exact h
  | succ rounds ih =>
    rw [spread]
    split
    · exact h
    · refine ih (List.nodup_append.mpr ⟨h, nodup_eraseDups _, fun x hx y hy heq => ?_⟩)
      exact (mem_successors_iff.mp hy).2 (heq ▸ hx)

theorem nodup_descendants (g : Graph) (file : String) : (g.descendants file).Nodup :=
  (nodup_spread (List.nodup_singleton file)).filter _

theorem WellFormed.mem_descendants_iff (h : g.WellFormed) {file x : String} :
    x ∈ g.descendants file ↔ x ≠ file ∧ LeadsOn g.edges file x := by
  rw [Graph.mem_descendants_iff h.closed]
  exact and_congr_right leads_iff_leadsOn

theorem WellFormed.descendants_subset (h : g.WellFormed) (file : String) : g.descendants file ⊆ g.ids := by
  intro x hx
  obtain ⟨-, hleads⟩ := h.mem_descendants_iff.mp hx
  obtain ⟨_, -, e, he, -, rfl⟩ := Relation.TransGen.tail'_iff.mp hleads
  exact h.closed e he

/-! ## Taking out -/

theorem hasNode_iff_mem {file : String} : g.hasNode file = true ↔ file ∈ g.ids := Fields.has_iff

/-- What edges lead to from a node is taken out of a graph, `count` nodes. All other nodes stay with their attributes,
and all edges between them, in their order. -/
structure TakesOut (g : Graph) (file : String) (removed : List String) (after : Graph) (count : ℕ) : Prop where
  mem_removed : ∀ x, x ∈ removed ↔ x ≠ file ∧ LeadsOn g.edges file x
  removed_subset : removed ⊆ g.ids
  nodup_removed : removed.Nodup
  count_eq : count = removed.length
  nodes_eq : after.nodes = g.nodes.filter fun node => node.1 ∉ removed
  edges_eq : after.edges = g.edges.filter fun e => e.source ∉ removed ∧ e.target ∉ removed

theorem WellFormed.takesOut (h : g.WellFormed) {file : String} (hfile : file ∈ g.ids) :
    TakesOut g file (g.descendants file) (g.removeFileNodes file).1 (g.removeFileNodes file).2 := by
  rw [Graph.removeFileNodes, if_pos (hasNode_iff_mem.mpr hfile)]
  refine ⟨fun x => h.mem_descendants_iff, h.descendants_subset file, nodup_descendants g file, rfl, ?_, ?_⟩
  · simp only [Graph.remove, List.contains_eq_mem, decide_not]
  · simp only [Graph.remove, List.contains_eq_mem, Bool.decide_and, decide_not]

variable {file : String} {removed : List String} {after : Graph} {count : ℕ}

theorem TakesOut.target_eq (h : TakesOut g file removed after count) {e : Edge} (he : e ∈ after.edges)
    (hsource : e.source = file) : e.target = file := by
  rw [h.edges_eq, List.mem_filter, decide_eq_true_eq] at he
  obtain ⟨hedge, -, htarget⟩ := he
  by_contra hne
  exact htarget ((h.mem_removed e.target).mpr ⟨hne, Relation.TransGen.single ⟨e, hedge, hsource, rfl⟩⟩)

theorem TakesOut.file_mem (h : TakesOut g file removed after count) (hfile : file ∈ g.ids) : file ∈ after.ids := by
  obtain ⟨⟨_, attrs⟩, hnode, rfl⟩ := List.mem_map.mp hfile
  refine List.mem_map_of_mem (f := Prod.fst) (?_ : (_, attrs) ∈ after.nodes)
  rw [h.nodes_eq, List.mem_filter, decide_eq_true_eq]
  exact ⟨hnode, fun hmem => ((h.mem_removed _).mp hmem).1 rfl⟩

theorem remove_nil (g : Graph) : g.remove [] = g := by simp [remove]

/-- Where no edge leads from a node elsewhere, nothing is taken out. -/
theorem WellFormed.removeFileNodes_of_targets (h : g.WellFormed)
    (htargets : ∀ e ∈ g.edges, e.source = file → e.target = file) : g.removeFileNodes file = (g, 0) := by
  have hnone : g.descendants file = [] := by
    refine List.eq_nil_iff_forall_not_mem.mpr fun x hx => ?_
    obtain ⟨hne, hleads⟩ := (Graph.mem_descendants_iff h.closed).mp hx
    exact hne (hleads.induction (S := fun y => y = file) htargets rfl)
  unfold Graph.removeFileNodes
  simp only [hnone, remove_nil, List.length_nil, ite_self]

theorem removeFileNodes_of_notMem (hfile : file ∉ g.ids) : g.removeFileNodes file = (g, 0) := by
  rw [Graph.removeFileNodes, if_neg (mt hasNode_iff_mem.mp hfile)]

/-- **A node takes out exactly the other nodes that edges lead to from it**, circles and shared nodes included, and
their number is returned. The node stays, edges that are left at it lead back to it, and a second removal finds
nothing. An unknown node takes out nothing. -/
theorem removeFileNodes_takesOut (h : g.WellFormed) (file : String) :
    (file ∈ g.ids → ∃ removed, TakesOut g file removed (g.removeFileNodes file).1 (g.removeFileNodes file).2 ∧
      file ∈ (g.removeFileNodes file).1.ids ∧
      (∀ e ∈ (g.removeFileNodes file).1.edges, e.source = file → e.target = file) ∧
      (g.removeFileNodes file).1.removeFileNodes file = ((g.removeFileNodes file).1, 0)) ∧
    (file ∉ g.ids → g.removeFileNodes file = (g, 0)) := by
  refine ⟨fun hfile => ?_, removeFileNodes_of_notMem⟩
  have htakes := h.takesOut hfile
  have htargets : ∀ e ∈ (g.removeFileNodes file).1.edges, e.source = file → e.target = file :=
    fun _ => htakes.target_eq
  exact ⟨_, htakes, htakes.file_mem hfile, htargets, (h.removeFileNodes file).removeFileNodes_of_targets htargets⟩

/-- A file with an edge to itself, a circle below it with a shared node, and another file that leads into the circle
and to a node of its own. -/
def circleGraph : Graph where
  nodes := [("f", [("kind", .str "File")]), ("a", []), ("b", [("x", .int 1)]), ("c", []), ("g", []), ("d", [])]
  edges := [⟨"f", "f", "self"⟩, ⟨"f", "a", ""⟩, ⟨"a", "b", ""⟩, ⟨"b", "c", ""⟩, ⟨"c", "a", ""⟩, ⟨"f", "c", ""⟩,
    ⟨"b", "f", "up"⟩, ⟨"g", "b", ""⟩, ⟨"g", "d", "own"⟩, ⟨"g", "f", "other"⟩]

theorem removeFileNodes_circleGraph : circleGraph.WellFormed ∧
    (circleGraph.removeFileNodes "f").2 = 3 ∧
    (circleGraph.removeFileNodes "f").1.ids = ["f", "g", "d"] ∧
    (circleGraph.removeFileNodes "f").1.edges = [⟨"f", "f", "self"⟩, ⟨"g", "d", "own"⟩, ⟨"g", "f", "other"⟩] ∧
    (circleGraph.removeFileNodes "f").1.removeFileNodes "f" = ((circleGraph.removeFileNodes "f").1, 0) := by
  have hformed : circleGraph.WellFormed := ⟨by decide, by decide⟩
  obtain ⟨_, -, -, -, hagain⟩ := (removeFileNodes_takesOut hformed "f").1 (by decide)
  exact ⟨hformed, by decide, by decide, by decide, hagain⟩

end Graph

end ComponentDocs

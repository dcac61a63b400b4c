import ComponentDocs.Proofs.Graph.Apart

/-!
# Graphs side by side

What is added under new identifiers stands beside what is there, as in a graph of its own.

* `Graph.append`: two graphs side by side, `Graph.Uses`: the identifiers that a graph uses;
* `Graph.putNode_append`, `Graph.putEdge_append`: additions under new identifiers go to the second graph;
* **`Graph.replaceFileNodes_append`**: so does all that a file brings, if nothing of it is there.
-/

namespace ComponentDocs

theorem Fields.set_append {α : Type} {fields : Fields α} {key : String} (h : key ∉ Fields.names fields)
    (more : Fields α) (value : α) : Fields.set (fields ++ more) key value = fields ++ Fields.set more key value := by
  induction fields with
  | nil => rfl
  | cons entry fields ih =>
    rw [names_cons, List.mem_cons, not_or] at h
    rw [List.cons_append, set, if_neg (Ne.symm h.1), ih h.2, List.cons_append]

namespace Graph

variable {a b : Graph}

/-- Two graphs side by side. -/
def append (a b : Graph) : Graph := ⟨a.nodes ++ b.nodes, a.edges ++ b.edges⟩

/-- There is a node with the identifier, or an edge starts there. -/
def Uses (g : Graph) (x : String) : Prop := x ∈ g.ids ∨ ∃ e ∈ g.edges, e.source = x

theorem append_empty (a : Graph) : a.append empty = a := by simp [append, empty]

theorem append_assoc (a b c : Graph) : (a.append b).append c = a.append (b.append c) := by simp [append]

theorem uses_append {x : String} : (a.append b).Uses x ↔ a.Uses x ∨ b.Uses x := by
  have hids : (a.append b).ids = a.ids ++ b.ids := List.map_append
  have hedges : (a.append b).edges = a.edges ++ b.edges := rfl
  unfold Uses
  rw [hids, hedges]
  simp only [List.mem_append, or_and_right, exists_or]
  exact or_or_or_comm

/-! ## Additions -/

theorem putNode_append {id : String} (h : id ∉ a.ids) (b : Graph) (attrs : Record) :
    (a.append b).putNode id attrs = a.append (b.putNode id attrs) := by
  have hget : Fields.get? a.nodes id = none := Fields.get?_eq_none_iff.mpr h
  unfold putNode append Fields.modify
  simp only [Fields.get?_append, hget, Option.none_or, Fields.set_append h]

theorem putAmong_append {e : Edge} {edges : List Edge} (h : ∀ other ∈ edges, other.source ≠ e.source)
    (more : List Edge) : putAmong e (edges ++ more) = edges ++ putAmong e more := by
  induction edges with
  | nil => rfl
  | cons other edges ih =>
    have hne : ¬ (other.source = e.source ∧ other.target = e.target) :=
      fun heq => h other List.mem_cons_self heq.1
    rw [List.cons_append, putAmong, if_neg hne, ih fun x hx => h x (List.mem_cons_of_mem _ hx), List.cons_append]

theorem putEdge_append {e : Edge} (hsource : ¬ a.Uses e.source) (htarget : ¬ a.Uses e.target) (b : Graph) :
    (a.append b).putEdge e = a.append (b.putEdge e) := by
  have hne : ∀ other ∈ a.edges, other.source ≠ e.source := fun other hother heq => hsource (Or.inr ⟨other, hother, heq⟩)
  unfold putEdge
  rw [putNode_append fun h => hsource (Or.inl h), putNode_append fun h => htarget (Or.inl h)]
  unfold append
  simp only [putAmong_append hne]

/-! ## Files -/

/-- Neither the file nor its schema uses an identifier of the graph. -/
structure Fresh (g : Graph) (file : String) (schema : Schema) : Prop where
  file : ¬ g.Uses file
  nodes : ∀ id ∈ schema.ids, ¬ g.Uses id
  edges : ∀ e ∈ schema.edges, ¬ g.Uses e.source ∧ ¬ g.Uses e.target

theorem addSchema_append {file : String} {schema : Schema} (h : Fresh a file schema) (b : Graph) :
    (a.append b).addSchema schema = a.append (b.addSchema schema) := by
  have hnodes : ∀ (nodes : List SchemaNode) (b : Graph), (∀ node ∈ nodes, node.id ∉ a.ids) →
      nodes.foldl (fun g node => g.putNode node.id (attributes node.fields)) (a.append b) =
        a.append (nodes.foldl (fun g node => g.putNode node.id (attributes node.fields)) b) := by
    intro nodes
    induction nodes with
    | nil => exact fun _ _ => rfl
    | cons node nodes ih =>
      intro b hnew
      rw [List.foldl_cons, List.foldl_cons, putNode_append (hnew node List.mem_cons_self)]
      exact ih _ fun other hother => hnew other (List.mem_cons_of_mem _ hother)
  have hedges : ∀ (edges : List Edge) (b : Graph), (∀ e ∈ edges, ¬ a.Uses e.source ∧ ¬ a.Uses e.target) →
      edges.foldl putEdge (a.append b) = a.append (edges.foldl putEdge b) := by
    intro edges
    induction edges with
    | nil => exact fun _ _ => rfl
    | cons e edges ih =>
      intro b hnew
      obtain ⟨hsource, htarget⟩ := hnew e List.mem_cons_self
      rw [List.foldl_cons, List.foldl_cons, putEdge_append hsource htarget]
      exact ih _ fun other hother => hnew other (List.mem_cons_of_mem _ hother)
  have hids : ∀ node ∈ schema.nodes, node.id ∉ a.ids := fun node hnode hid =>
    h.nodes node.id (List.mem_map_of_mem hnode) (Or.inl hid)
  unfold addSchema
  rw [hnodes _ _ hids, hedges _ _ h.edges]

/-- The graph of a file alone. -/
def ofFile (id : String) (file : Record) (schema : Schema) : Graph := empty.replaceFileNodes id file schema

theorem resetFile_of_notMem {id : String} (h : id ∉ a.ids) (file : Record) :
    a.resetFile id file = a.putNode id (fileAttributes file) := by
  have hnode : a.hasNode id = false := by
    rw [hasNode, Bool.eq_false_iff, Ne, Fields.has_iff]
    exact h
  unfold resetFile removeFileNodes
  rw [hnode]
  rfl

/-- **What a new file brings stands beside what is there.** -/
theorem replaceFileNodes_append {id : String} {schema : Schema} (h : Fresh a id schema) (file : Record) :
    a.replaceFileNodes id file schema = a.append (ofFile id file schema) := by
  have hid : id ∉ a.ids := fun hid => h.file (Or.inl hid)
  unfold ofFile replaceFileNodes
  rw [resetFile_of_notMem hid, resetFile_of_notMem (a := empty) List.not_mem_nil, ← addSchema_append h,
    ← putNode_append hid, append_empty]

theorem of_uses_ofFile {id : String} {file : Record} {schema : Schema}
    (hends : ∀ e ∈ schema.edges, (e.source = id ∨ e.source ∈ schema.ids) ∧ e.target ∈ schema.ids) {x : String}
    (h : (ofFile id file schema).Uses x) : x = id ∨ x ∈ schema.ids := by
  unfold ofFile replaceFileNodes at h
  rw [resetFile_of_notMem (a := empty) List.not_mem_nil] at h
  rcases h with hx | ⟨e, he, rfl⟩
  · by_contra hnew
    rw [not_or] at hnew
    refine Fields.get?_eq_none_iff.mp ?_ hx
    have hedges : ∀ e ∈ schema.edges, x ≠ e.source ∧ x ≠ e.target := by
      intro e he
      obtain ⟨hsource, htarget⟩ := hends e he
      refine ⟨?_, fun heq => hnew.2 (heq ▸ htarget)⟩
      rintro rfl
      exact hsource.elim hnew.1 hnew.2
    unfold addSchema
    rw [get?_foldl_putEdge hedges, get?_foldl_putNode hnew.2, get?_putNode, if_neg hnew.1]
    rfl
  · have hschema : e ∈ schema.edges := by
      rcases mem_edges_foldl_putEdge he with he | he
      · rw [edges_foldl_putNode] at he
        exact absurd he List.not_mem_nil
      · exact he
    exact (hends e hschema).1

end Graph

end ComponentDocs

import ComponentDocs.Batch.Processed
import ComponentDocs.Proofs.Graph.Union
import ComponentDocs.Proofs.Metadata.Sound

/-!
# Graphs of processed files

The graph of files that share no identifier is that of the single files side by side, in whatever order they come.

* `Processed.graph`: the graph of a file alone, `Processed.ids`: the identifiers of its nodes;
* **`graphOf_eq`**: the graph of files without shared identifiers;
* `perm_together`: their order does not matter.
-/

namespace ComponentDocs

namespace Processed

/-- The identifier of the node of the file. -/
def fileId (p : Processed) : String := (Record.get p.file "id").display

/-- What the components of the file bring. -/
def schema (p : Processed) : Schema :=
  match emit nodeId p.file p.components with
  | .ok schema => schema
  | .error _ => Schema.empty

/-- The identifiers that are emitted for the file. -/
def emittedIds (p : Processed) : List String := p.schema.ids

/-- The graph of the file alone. -/
def graph (p : Processed) : Graph := Graph.ofFile p.fileId p.file p.schema

/-- The file has an identifier, and its components are normal. -/
structure Normal (p : Processed) : Prop where
  hasId : Fields.has p.file "id" = true
  components : ∀ component ∈ p.components, IsNormal component

variable {p q : Processed}

/-- The pass over the file. -/
def Normal.pass (h : p.Normal) : Pass where
  file := p.file
  components := p.components
  hasId := h.hasId
  named component hcomponent := (h.components component hcomponent).2
  distinct component hcomponent := (h.components component hcomponent).fieldsDistinct

theorem Normal.schema_pass (h : p.Normal) : h.pass.schema nodeId = p.schema := rfl

theorem Normal.ends (h : p.Normal) : ∀ e ∈ p.schema.edges,
    (e.source = p.fileId ∨ e.source ∈ p.emittedIds) ∧ e.target ∈ p.emittedIds := by
  intro e he
  have hrooted := h.pass.rooted nodeId
  exact ⟨hrooted.source_mem e he, hrooted.target_mem e he⟩

theorem Normal.addProcessed_eq (h : p.Normal) (g : Graph) :
    addProcessed g p = .ok (g.replaceFileNodes p.fileId p.file p.schema) := by
  have hemit : emit nodeId p.file p.components = .ok p.schema := h.pass.emit_eq nodeId
  have hid : Record.requireText p.file "id" = .ok p.fileId := by
    rw [Record.requireText, Record.require_of_has h.hasId]
    rfl
  unfold addProcessed
  rw [hid, hemit]
  rfl

/-! ## Identifiers -/

theorem dot_notMem_nodeId (seed : String) : '.' ∉ (nodeId seed).toList := by
  have hgroup : ∀ bytes, '.' ∉ Digest.hex bytes := fun bytes h =>
    Digest.forall_mem_hex (P := (· ≠ '.')) (by decide) bytes '.' h rfl
  unfold nodeId Digest.idText
  rw [String.toList_ofList]
  simp [hgroup]

theorem Normal.dot_notMem (h : p.Normal) {x : String} (hx : x ∈ p.emittedIds) : '.' ∉ x.toList := by
  obtain ⟨seed, -, rfl⟩ := Pass.mem_ids_schema_iff.mp (h.schema_pass ▸ hx : x ∈ (h.pass.schema nodeId).ids)
  exact dot_notMem_nodeId seed

/-- Two files have different identifiers, and no identifier is emitted for both. -/
structure Apart (p q : Processed) : Prop where
  file : p.fileId ≠ q.fileId
  emitted : p.emittedIds.Disjoint q.emittedIds

instance : Decidable (Apart p q) :=
  decidable_of_iff (p.fileId ≠ q.fileId ∧ ∀ x ∈ p.emittedIds, x ∉ q.emittedIds)
    ⟨fun h => ⟨h.1, fun x hp hq => h.2 x hp hq⟩, fun h => ⟨h.file, fun _ hp hq => h.emitted hp hq⟩⟩

/-- The identifiers that the file brings. -/
def ids (p : Processed) : List String := p.fileId :: p.emittedIds

/-- Identifiers of files have dots, which those of other nodes do not have. -/
theorem Apart.disjoint_ids (hapart : Apart p q) (hp : p.Normal) (hq : q.Normal) (hpdot : '.' ∈ p.fileId.toList)
    (hqdot : '.' ∈ q.fileId.toList) : p.ids.Disjoint q.ids := by
  intro x hxp hxq
  rcases List.mem_cons.mp hxp with rfl | hxp
  · rcases List.mem_cons.mp hxq with heq | hxq
    · exact hapart.file heq
    · exact hq.dot_notMem hxq hpdot
  · rcases List.mem_cons.mp hxq with rfl | hxq
    · exact hp.dot_notMem hxp hqdot
    · exact hapart.emitted hxp hxq

theorem Normal.of_uses (h : p.Normal) {x : String} (hx : p.graph.Uses x) : x ∈ p.ids :=
  List.mem_cons.mpr (Graph.of_uses_ofFile h.ends hx)

theorem Normal.fresh (h : p.Normal) {g : Graph} (hnew : ∀ x ∈ p.ids, ¬ g.Uses x) : g.Fresh p.fileId p.schema := by
  refine ⟨hnew _ List.mem_cons_self, fun x hx => hnew x (List.mem_cons_of_mem _ hx), fun e he => ?_⟩
  obtain ⟨hsource, htarget⟩ := h.ends e he
  exact ⟨hnew _ (List.mem_cons.mpr hsource), hnew _ (List.mem_cons_of_mem _ htarget)⟩

end Processed

/-! ## Files side by side -/

/-- The graphs of the single files side by side. -/
def together (files : List Processed) : Graph :=
  ⟨files.flatMap (·.graph.nodes), files.flatMap (·.graph.edges)⟩

theorem together_cons (p : Processed) (files : List Processed) : together (p :: files) = p.graph.append (together files) := by
  simp [together, Graph.append]

theorem foldlM_addProcessed {files : List Processed} (hnormal : ∀ p ∈ files, p.Normal)
    (hdisjoint : files.Pairwise fun p q => p.ids.Disjoint q.ids) {g : Graph}
    (hnew : ∀ p ∈ files, ∀ x ∈ p.ids, ¬ g.Uses x) : files.foldlM addProcessed g = .ok (g.append (together files)) := by
  induction files generalizing g with
  | nil => exact congrArg Except.ok (Graph.append_empty g).symm
  | cons p files ih =>
    obtain ⟨hp, hfiles⟩ := List.forall_mem_cons.mp hnormal
    obtain ⟨hfirst, hrest⟩ := List.pairwise_cons.mp hdisjoint
    obtain ⟨hpnew, hlater⟩ := List.forall_mem_cons.mp hnew
    have hadded : addProcessed g p = .ok (g.append p.graph) := by
      rw [hp.addProcessed_eq, Graph.replaceFileNodes_append (hp.fresh hpnew)]
      rfl
    have huses : ∀ q ∈ files, ∀ x ∈ q.ids, ¬ (g.append p.graph).Uses x := by
      intro q hq x hx huse
      rcases Graph.uses_append.mp huse with huse | huse
      · exact hlater q hq x hx huse
      · exact hfirst q hq (hp.of_uses huse) hx
    rw [List.foldlM_cons, hadded, together_cons, ← Graph.append_assoc]
    exact ih hfiles hrest huses

/-- **The graph of files without shared identifiers** is that of the single files side by side. -/
theorem graphOf_eq {files : List Processed} (hnormal : ∀ p ∈ files, p.Normal)
    (hdisjoint : files.Pairwise fun p q => p.ids.Disjoint q.ids) : graphOf files = .ok (together files) := by
  have hempty : ∀ x, ¬ Graph.empty.Uses x := by
    rintro x (hx | ⟨e, he, -⟩)
    · exact absurd hx List.not_mem_nil
    · exact absurd he List.not_mem_nil
  exact foldlM_addProcessed hnormal hdisjoint fun p _ x _ => hempty x

theorem perm_together {files others : List Processed} (h : files.Perm others) :
    (together files).nodes.Perm (together others).nodes ∧ (together files).edges.Perm (together others).edges :=
  ⟨h.flatMap_right _, h.flatMap_right _⟩

end ComponentDocs

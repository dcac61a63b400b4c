import ComponentDocs.Proofs.Emission.Shared
import ComponentDocs.Proofs.Graph.Passes
import Mathlib.Logic.Equiv.Basic

/-!
# Files apart

A pass over one file and the nodes of the other files.

* `disjoint_ids`: files that do not continue each other share no identifier;
* `Unshared`: no identifier belongs to two files; `EdgesFrom`: the edges of a graph were emitted in passes;
* `EdgesFrom.mem_descendants`: the descendants of a file were emitted for it;
* `EdgesFrom.get?_replace`, `EdgesFrom.mem_edges_replace_iff`: a pass changes nothing that belongs to another file;
* **`disjoint_iff_not_continues`**: when files share no identifier, and that passes over one then keep the others;
* `replace_removes_shared_node`: files that do share one, and a pass that removes a node of the other file.
-/

namespace ComponentDocs

/-! ## What a schema adds -/

namespace Graph

variable {g : Graph}

theorem edges_foldl_putNode (nodes : List SchemaNode) (g : Graph) :
    (nodes.foldl (fun g node => g.putNode node.id (attributes node.fields)) g).edges = g.edges := by
  induction nodes generalizing g with
  | nil => rfl
  | cons node nodes ih => exact ih _

theorem mem_or_eq_of_mem_putAmong {e x : Edge} {edges : List Edge} (h : x ∈ putAmong e edges) :
    x = e ∨ x ∈ edges := by
  induction edges with
  | nil => exact Or.inl (List.mem_singleton.mp h)
  | cons f edges ih =>
    rw [putAmong] at h
    split_ifs at h
    · exact (List.mem_cons.mp h).imp_right (List.mem_cons_of_mem _)
    · rcases List.mem_cons.mp h with rfl | h
      · exact Or.inr List.mem_cons_self
      · exact (ih h).imp_right (List.mem_cons_of_mem _)

theorem mem_putAmong_of_target_ne {e x : Edge} {edges : List Edge} (h : x ∈ edges) (hne : x.target ≠ e.target) :
    x ∈ putAmong e edges := by
  induction edges with
  | nil => exact absurd h List.not_mem_nil
  | cons f edges ih =>
    rw [putAmong]
    split_ifs with hf
    · refine List.mem_cons_of_mem _ ((List.mem_cons.mp h).resolve_left ?_)
      rintro rfl
      exact hne hf.2
    · exact List.mem_cons.mpr ((List.mem_cons.mp h).imp_right ih)

theorem mem_edges_foldl_putEdge {new : List Edge} {x : Edge} (h : x ∈ (new.foldl putEdge g).edges) :
    x ∈ g.edges ∨ x ∈ new := by
  induction new generalizing g with
  | nil => exact Or.inl h
  | cons e new ih =>
    rcases ih h with h | h
    · rcases mem_or_eq_of_mem_putAmong h with rfl | h
      · exact Or.inr List.mem_cons_self
      · exact Or.inl h
    · exact Or.inr (List.mem_cons_of_mem _ h)

theorem mem_edges_foldl_putEdge_of_target_ne {new : List Edge} {x : Edge} (h : x ∈ g.edges)
    (hne : ∀ e ∈ new, x.target ≠ e.target) : x ∈ (new.foldl putEdge g).edges := by
  induction new generalizing g with
  | nil => exact h
  | cons e new ih =>
    apply ih
    · exact mem_putAmong_of_target_ne h (hne e List.mem_cons_self)
    · exact fun f hf => hne f (List.mem_cons_of_mem _ hf)

theorem get?_foldl_putNode {nodes : List SchemaNode} {x : String} (h : x ∉ nodes.map SchemaNode.id) (g : Graph) :
    Fields.get? (nodes.foldl (fun g node => g.putNode node.id (attributes node.fields)) g).nodes x =
      Fields.get? g.nodes x := by
  induction nodes generalizing g with
  | nil => rfl
  | cons node nodes ih =>
    rw [List.map_cons, List.mem_cons, not_or] at h
    rw [List.foldl_cons, ih h.2, get?_putNode, if_neg h.1]

theorem get?_foldl_putEdge {new : List Edge} {x : String} (h : ∀ e ∈ new, x ≠ e.source ∧ x ≠ e.target) (g : Graph) :
    Fields.get? (new.foldl putEdge g).nodes x = Fields.get? g.nodes x := by
  induction new generalizing g with
  | nil => rfl
  | cons e new ih =>
    obtain ⟨hsource, htarget⟩ := h e List.mem_cons_self
    rw [List.foldl_cons, ih fun f hf => h f (List.mem_cons_of_mem _ hf)]
    change Fields.get? ((g.putNode e.source []).putNode e.target []).nodes x = _
    rw [get?_putNode, if_neg htarget, get?_putNode, if_neg hsource]

theorem get?_remove {ids : List String} {x : String} (h : x ∉ ids) (g : Graph) :
    Fields.get? (g.remove ids).nodes x = Fields.get? g.nodes x := by
  cases g with
  | mk nodes edges =>
    unfold remove
    induction nodes with
    | nil => rfl
    | cons node nodes ih =>
      simp only [List.filter_cons, Fields.get?_cons] at ih ⊢
      by_cases hnode : node.1 ∈ ids
      · have hne : node.1 ≠ x := fun heq => h (heq ▸ hnode)
        simp only [List.contains_iff_mem.mpr hnode, Bool.not_true, Bool.false_eq_true, if_false, if_neg hne]
        exact ih
      · simp only [Bool.eq_false_iff.mpr fun hc => hnode (List.contains_iff_mem.mp hc), Bool.not_false, if_true,
          Fields.get?_cons, ih]

end Graph

namespace Pass

variable {createId : String → String} {passes : List Pass} {g : Graph} {p q : Pass}

/-! ## Identifiers of different files -/

theorem mem_ids_schema_iff {x : String} :
    x ∈ (p.schema createId).ids ↔ ∃ seed ∈ fileSeeds p.id p.components, createId seed = x := by
  obtain ⟨e, he, h⟩ := emit_eq_schema createId p.hasId p.named
  have hschema : p.schema createId = e.schema := by rw [schema, he]
  have htexts : ∀ text, text ∈ Use.texts (Use.first (fileUses createId p.id p.components)) ↔
      text ∈ fileTexts p.components := by
    intro text
    rw [Use.mem_texts_first, texts_fileUses]
  rw [hschema, e.ids_schema, h.ids_perm.mem_iff]
  simp only [List.mem_map, List.mem_append, descriptionSeeds, fileSeeds, id] at htexts ⊢
  simp only [htexts]

/-- Files that do not continue each other share no identifier. -/
theorem disjoint_ids (hinj : Function.Injective createId) (hne : p.id ≠ q.id) (hpq : ¬ Continues p.id q.id)
    (hqp : ¬ Continues q.id p.id) : List.Disjoint (p.schema createId).ids (q.schema createId).ids := by
  intro x hp hq
  obtain ⟨seed, hseed, rfl⟩ := mem_ids_schema_iff.mp hp
  obtain ⟨other, hother, heq⟩ := mem_ids_schema_iff.mp hq
  rw [hinj heq] at hother
  exact (continues_of_mem_fileSeeds hseed hother hne).elim hpq hqp

/-- A pass over a file with so many components of one name and nothing else. -/
def bare (file name : String) (count : ℕ) : Pass where
  file := [("id", .str file)]
  components := List.replicate count (namedComponent name)
  hasId := rfl
  named := by
    intro component hcomponent
    rw [List.eq_of_mem_replicate hcomponent]
    exact fun prop hprop => absurd hprop List.not_mem_nil
  distinct := by
    intro component hcomponent
    rw [List.eq_of_mem_replicate hcomponent]
    exact ⟨List.nodup_singleton _, fun prop hprop => absurd hprop List.not_mem_nil⟩

variable (createId) in
/-- Files that continue each other may share an identifier. -/
theorem exists_not_disjoint {a b : String} (h : Continues a b) :
    ∃ p q : Pass, p.id = a ∧ q.id = b ∧ ¬ List.Disjoint (p.schema createId).ids (q.schema createId).ids := by
  obtain ⟨index, name, seed, ha, hb⟩ := exists_common_seed h
  refine ⟨bare a name (index + 1), bare b "X" 1, rfl, rfl, fun hdisjoint => ?_⟩
  exact hdisjoint (mem_ids_schema_iff.mpr ⟨seed, ha, rfl⟩) (mem_ids_schema_iff.mpr ⟨seed, hb, rfl⟩)

/-! ## Passes over different files -/

variable (createId) in
/-- No identifier is emitted for two files, and none is that of a file. -/
structure Unshared (passes : List Pass) : Prop where
  apart : ∀ p ∈ passes, ∀ q ∈ passes, p.id ≠ q.id →
    List.Disjoint (p.schema createId).ids (q.schema createId).ids
  not_file : ∀ p ∈ passes, ∀ q ∈ passes, p.id ∉ (q.schema createId).ids

variable (createId) in
/-- Every edge of the graph was emitted in one of the passes. -/
def EdgesFrom (passes : List Pass) (g : Graph) : Prop :=
  ∀ e ∈ g.edges, ∃ q ∈ passes, e ∈ (q.schema createId).edges

theorem mem_edges_replace {e : Edge} (h : e ∈ (p.replace createId g).edges) :
    e ∈ g.edges ∨ e ∈ (p.schema createId).edges := by
  rcases Graph.mem_edges_foldl_putEdge h with h | h
  · rw [Graph.edges_foldl_putNode] at h
    exact Or.inl ((Graph.removeFileNodes_sublist g p.id).2.subset h)
  · exact Or.inr h

variable (createId) in
/-- **The edges after passes are those that the passes emit.** -/
theorem edgesFrom_foldl (passes : List Pass) :
    EdgesFrom createId passes (passes.foldl (fun g p => p.replace createId g) Graph.empty) := by
  induction passes using List.reverseRecOn with
  | nil => exact fun e he => absurd he List.not_mem_nil
  | append_singleton passes p ih =>
    rw [List.foldl_append]
    intro e he
    rcases mem_edges_replace he with he | he
    · obtain ⟨q, hq, he⟩ := ih e he
      exact ⟨q, List.mem_append_left _ hq, he⟩
    · exact ⟨p, List.mem_append_right _ (List.mem_singleton_self p), he⟩

section

variable (hunshared : Unshared createId (p :: passes)) (hfrom : EdgesFrom createId passes g)
include hunshared hfrom

/-- **The descendants of a file were emitted for it.** -/
theorem EdgesFrom.mem_descendants {x : String} (hx : x ∈ g.descendants p.id) :
    ∃ r ∈ passes, r.id = p.id ∧ x ∈ (r.schema createId).ids := by
  obtain ⟨hspread, hne⟩ := List.mem_filter.mp hx
  obtain ⟨a, ha, hleads⟩ := Graph.reaches_of_mem_spread hspread
  rw [List.mem_singleton.mp ha] at hleads
  have hclosed : ∀ e ∈ g.edges,
      (e.source = p.id ∨ ∃ r ∈ passes, r.id = p.id ∧ e.source ∈ (r.schema createId).ids) →
        e.target = p.id ∨ ∃ r ∈ passes, r.id = p.id ∧ e.target ∈ (r.schema createId).ids := by
    intro e he hsource
    obtain ⟨q, hq, hedge⟩ := hfrom e he
    refine Or.inr ⟨q, hq, ?_, (q.rooted createId).target_mem e hedge⟩
    have hqmem : q ∈ p :: passes := List.mem_cons_of_mem _ hq
    -- the edge starts at the file of `q` or at a node of `q`
    by_contra hid
    rcases (q.rooted createId).source_mem e hedge with hfile | hmem
    · rcases hsource with hsource | ⟨r, hr, -, hsource⟩
      · exact hid (hfile.symm.trans hsource)
      · exact hunshared.not_file q hqmem r (List.mem_cons_of_mem _ hr) (hfile ▸ hsource)
    · rcases hsource with hsource | ⟨r, hr, hrid, hsource⟩
      · exact hunshared.not_file p List.mem_cons_self q hqmem (hsource ▸ hmem)
      · exact hunshared.apart q hqmem r (List.mem_cons_of_mem _ hr) (hrid ▸ hid) hmem hsource
  have hS := Leads.induction
    (S := fun y => y = p.id ∨ ∃ r ∈ passes, r.id = p.id ∧ y ∈ (r.schema createId).ids)
    hclosed hleads (Or.inl rfl)
  exact hS.resolve_left (by simpa using hne)

variable (hq : q ∈ passes) (hne : q.id ≠ p.id)
include hq hne

theorem EdgesFrom.notMem_descendants {x : String} (hx : x = q.id ∨ x ∈ (q.schema createId).ids) :
    x ∉ g.descendants p.id := by
  intro hmem
  obtain ⟨r, hr, hid, hrx⟩ := hfrom.mem_descendants hunshared hmem
  have hqmem : q ∈ p :: passes := List.mem_cons_of_mem _ hq
  rcases hx with rfl | hx
  · exact hunshared.not_file q hqmem r (List.mem_cons_of_mem _ hr) hrx
  · exact hunshared.apart q hqmem r (List.mem_cons_of_mem _ hr) (hid ▸ hne) hx hrx

/-- **A pass keeps the nodes of the other files.** -/
theorem EdgesFrom.get?_replace {x : String} (hx : x = q.id ∨ x ∈ (q.schema createId).ids) :
    Fields.get? (p.replace createId g).nodes x = Fields.get? g.nodes x := by
  have hqmem : q ∈ p :: passes := List.mem_cons_of_mem _ hq
  have hfile : x ≠ p.id := by
    rcases hx with rfl | hx
    · exact hne
    · exact fun heq => hunshared.not_file p List.mem_cons_self q hqmem (heq ▸ hx)
  have hids : x ∉ (p.schema createId).ids := by
    rcases hx with rfl | hx
    · exact hunshared.not_file q hqmem p List.mem_cons_self
    · exact hunshared.apart q hqmem p List.mem_cons_self hne hx
  have hends : ∀ e ∈ (p.schema createId).edges, x ≠ e.source ∧ x ≠ e.target := by
    intro e he
    constructor
    · rintro rfl
      exact ((p.rooted createId).source_mem e he).elim hfile hids
    · rintro rfl
      exact hids ((p.rooted createId).target_mem e he)
  have hremove : Fields.get? (g.removeFileNodes p.id).1.nodes x = Fields.get? g.nodes x := by
    rw [Graph.removeFileNodes]
    split_ifs
    · exact Graph.get?_remove (hfrom.notMem_descendants hunshared hq hne hx) g
    · rfl
  rw [replace, Graph.replaceFileNodes, Graph.addSchema, Graph.get?_foldl_putEdge hends,
    Graph.get?_foldl_putNode hids, Graph.resetFile, Graph.get?_putNode, if_neg hfile, hremove]

/-- **A pass keeps the edges of the other files.** -/
theorem EdgesFrom.mem_edges_replace_iff {e : Edge} (htarget : e.target ∈ (q.schema createId).ids) :
    e ∈ (p.replace createId g).edges ↔ e ∈ g.edges := by
  have hqmem : q ∈ p :: passes := List.mem_cons_of_mem _ hq
  have hnew : ∀ f ∈ (p.schema createId).edges, e.target ≠ f.target := by
    intro f hf heq
    have hmem := (p.rooted createId).target_mem f hf
    exact hunshared.apart q hqmem p List.mem_cons_self hne htarget (heq ▸ hmem)
  refine ⟨fun he => (mem_edges_replace he).resolve_right fun hmem => hnew e hmem rfl, fun he => ?_⟩
  apply Graph.mem_edges_foldl_putEdge_of_target_ne _ hnew
  rw [Graph.edges_foldl_putNode]
  change e ∈ (g.removeFileNodes p.id).1.edges
  rw [Graph.removeFileNodes]
  split_ifs
  · obtain ⟨r, hr, hedge⟩ := hfrom e he
    have hrmem : r ∈ p :: passes := List.mem_cons_of_mem _ hr
    have hid : r.id = q.id := by
      by_contra hid
      exact hunshared.apart r hrmem q hqmem hid ((r.rooted createId).target_mem e hedge) htarget
    have hsource : e.source = r.id ∨ e.source ∈ (r.schema createId).ids := (r.rooted createId).source_mem e hedge
    refine Graph.mem_edges_remove.mpr ⟨he, ?_, ?_⟩
    · exact hfrom.notMem_descendants hunshared hr (hid ▸ hne) hsource
    · exact hfrom.notMem_descendants hunshared hq hne (Or.inr htarget)
  · exact he

end

/-! ## Files that do not continue each other -/

theorem unshared_of_not_continues (hinj : Function.Injective createId)
    (hapart : ∀ q ∈ passes, ∀ r ∈ passes, q.id ≠ r.id → ¬ Continues q.id r.id)
    (hfile : ∀ q ∈ passes, ∀ r ∈ passes, q.id ∉ (r.schema createId).ids) : Unshared createId passes :=
  ⟨fun p hp q hq hne => disjoint_ids hinj hne (hapart p hp q hq hne) (hapart q hq p hp (Ne.symm hne)), hfile⟩

/-- **Two files share no identifier, whatever their components, exactly if neither continues the other.** Where
this holds of all files and no identifier is that of a file, one more pass over a file changes no node and no
edge that belongs to another file. -/
theorem disjoint_iff_not_continues (hinj : Function.Injective createId) :
    (∀ a b, a ≠ b → ((∀ p q : Pass, p.id = a → q.id = b →
        List.Disjoint (p.schema createId).ids (q.schema createId).ids) ↔
      ¬ Continues a b ∧ ¬ Continues b a)) ∧
    ∀ (passes : List Pass) (p : Pass),
      (∀ q ∈ p :: passes, ∀ r ∈ p :: passes, q.id ≠ r.id → ¬ Continues q.id r.id) →
      (∀ q ∈ p :: passes, ∀ r ∈ p :: passes, q.id ∉ (r.schema createId).ids) →
      ∃ g g', run createId passes = .ok g ∧ p.apply createId g = .ok g' ∧
        ∀ q ∈ passes, q.id ≠ p.id →
          (∀ x, x = q.id ∨ x ∈ (q.schema createId).ids → Fields.get? g'.nodes x = Fields.get? g.nodes x) ∧
          ∀ e : Edge, e.target ∈ (q.schema createId).ids → (e ∈ g'.edges ↔ e ∈ g.edges) := by
  constructor
  · intro a b hne
    constructor
    · intro hdisjoint
      constructor
      · intro hab
        obtain ⟨p, q, hp, hq, hshared⟩ := exists_not_disjoint createId hab
        exact hshared (hdisjoint p q hp hq)
      · intro hba
        obtain ⟨q, p, hq, hp, hshared⟩ := exists_not_disjoint createId hba
        exact hshared fun x hx hy => hdisjoint p q hp hq hy hx
    · rintro ⟨hab, hba⟩ p q rfl rfl
      exact disjoint_ids hinj hne hab hba
  · intro passes p hapart hfile
    have hunshared := unshared_of_not_continues hinj hapart hfile
    have hfrom := edgesFrom_foldl createId passes
    refine ⟨_, _, foldlM_apply createId passes Graph.empty, apply_eq createId _ p, fun q hq hne => ⟨?_, ?_⟩⟩
    · exact fun x => hfrom.get?_replace hunshared hq hne
    · exact fun e => hfrom.mem_edges_replace_iff hunshared hq hne

end Pass

/-- A file whose name goes on with two dashes and an index beside one that it does not continue. -/
def apartPasses : List Pass := [Pass.bare "ui/a.js" "A" 1, Pass.bare "ui/b.js--0--a.js" "B" 2]

theorem run_apartPasses : Function.Injective (id : String → String) ∧
    (∀ q ∈ Pass.bare "ui/a.js" "A" 0 :: apartPasses, ∀ r ∈ Pass.bare "ui/a.js" "A" 0 :: apartPasses,
      q.id ≠ r.id → ¬ Continues q.id r.id) ∧
    ∃ g g', Pass.run id apartPasses = .ok g ∧ (Pass.bare "ui/a.js" "A" 0).apply id g = .ok g' ∧
      Fields.get? g'.nodes "ui/b.js--0--a.js--1--B--ComponentMetadata" =
        Fields.get? g.nodes "ui/b.js--0--a.js--1--B--ComponentMetadata" := by
  have hapart : ∀ q ∈ Pass.bare "ui/a.js" "A" 0 :: apartPasses, ∀ r ∈ Pass.bare "ui/a.js" "A" 0 :: apartPasses,
      q.id ≠ r.id → ¬ Continues q.id r.id := by
    have hall : ∀ q ∈ Pass.bare "ui/a.js" "A" 0 :: apartPasses, ∀ r ∈ Pass.bare "ui/a.js" "A" 0 :: apartPasses,
        q.id ≠ r.id → ¬ (q.id ++ "--").toList <+: (r.id ++ "--").toList := by decide
    exact fun q hq r hr hne hcontinues => hall q hq r hr hne hcontinues.isPrefix
  have hfile : ∀ q ∈ Pass.bare "ui/a.js" "A" 0 :: apartPasses, ∀ r ∈ Pass.bare "ui/a.js" "A" 0 :: apartPasses,
      q.id ∉ (r.schema id).ids := by decide +kernel
  have hmem : "ui/b.js--0--a.js--1--B--ComponentMetadata" ∈ ((Pass.bare "ui/b.js--0--a.js" "B" 2).schema id).ids := by
    decide +kernel
  obtain ⟨g, g', hg, hg', hkept⟩ := (Pass.disjoint_iff_not_continues Function.injective_id).2 _ _ hapart hfile
  have hnode := (hkept (Pass.bare "ui/b.js--0--a.js" "B" 2) (by simp [apartPasses]) (by decide)).1 _ (Or.inr hmem)
  exact ⟨Function.injective_id, hapart, g, g', hg, hg', hnode⟩

/-- **Different files may share an identifier, and a pass over one then removes the node of the other.** The same
happens if an identifier is that of a file. -/
theorem replace_removes_shared_node :
    (∃ p q cleared : Pass, p.id ≠ q.id ∧ cleared.id = p.id ∧
      ¬ List.Disjoint (p.schema id).ids (q.schema id).ids ∧
      ∃ x ∈ (q.schema id).ids, ∃ g g', Pass.run id [p, q] = .ok g ∧ cleared.apply id g = .ok g' ∧
        (Fields.get? g.nodes x).isSome ∧ Fields.get? g'.nodes x = none) ∧
    ∃ createId : String → String, Function.Injective createId ∧
      ∃ p q cleared : Pass, p.id ≠ q.id ∧ cleared.id = p.id ∧ ∃ g g', Pass.run createId [p, q] = .ok g ∧
        cleared.apply createId g = .ok g' ∧ (Fields.get? g.nodes q.id).isSome ∧
        Fields.get? g'.nodes q.id = none := by
  constructor
  · refine ⟨Pass.bare "ui/a.js" "b.js--0--X" 1, Pass.bare "ui/a.js--0--b.js" "X" 1, Pass.bare "ui/a.js" "X" 0,
      by decide, rfl, fun hdisjoint => ?_, "ui/a.js--0--b.js--0--X--ComponentMetadata", by decide +kernel, _, _,
      Pass.foldlM_apply id _ Graph.empty, Pass.apply_eq id _ _, by decide +kernel, ?_⟩
    · exact hdisjoint (a := "ui/a.js--0--b.js--0--X--ComponentMetadata") (by decide +kernel) (by decide +kernel)
    · exact Option.isNone_iff_eq_none.mp (by decide +kernel)
  · refine ⟨Equiv.swap "a--0--A--ComponentMetadata" "b", Equiv.injective _, Pass.bare "a" "A" 1, Pass.bare "b" "B" 0,
      Pass.bare "a" "A" 0, by decide, rfl, _, _, Pass.foldlM_apply _ _ Graph.empty, Pass.apply_eq _ _ _,
      by decide +kernel, ?_⟩
    exact Option.isNone_iff_eq_none.mp (by decide +kernel)

end ComponentDocs

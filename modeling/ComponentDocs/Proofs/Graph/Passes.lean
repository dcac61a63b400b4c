import ComponentDocs.Proofs.Graph.Pass

/-!
# Runs of passes

After passes over any files in any order, a graph holds what the last pass of each file emits.

* `Separate`: identifiers are distinct within a pass and belong to one file;
* `Holds`: what a graph holds after passes; `Holds.mem_descendants_iff`: the descendants of a file are what its
  last pass emitted;
* `Holds.replace`: one more pass; `holds_foldl`: all passes;
* `Holds.perm`: the order of passes of different files does not matter;
* **`run_leaves_last_passes`**: what a run leaves, whatever the order, and that a repeated last pass changes nothing.
-/

namespace ComponentDocs.Pass

variable (createId : String → String)

/-- The identifiers that are emitted in a pass are distinct, none is emitted for two files, and none is that
of a file. -/
structure Separate (passes : List Pass) : Prop where
  nodup : ∀ p ∈ passes, (p.schema createId).ids.Nodup
  apart : ∀ p ∈ passes, ∀ q ∈ passes, ∀ x ∈ (p.schema createId).ids, x ∈ (q.schema createId).ids → p.id = q.id
  not_file : ∀ p ∈ passes, ∀ q ∈ passes, p.id ∉ (q.schema createId).ids

/-- The graph holds what the last pass of each file emits and the nodes of the files, each identifier once and
at most one edge between two nodes. -/
structure Holds (passes : List Pass) (g : Graph) : Prop where
  nodup_ids : g.ids.Nodup
  nodup_ends : (g.edges.map Edge.ends).Nodup
  mem_nodes : ∀ x attrs, (x, attrs) ∈ g.nodes ↔
    (∃ p ∈ passes, p.id = x ∧ fileState passes x = attrs) ∨
      ∃ p, IsLast passes p ∧ (x, attrs) ∈ (p.schema createId).entries
  mem_edges : ∀ e, e ∈ g.edges ↔ ∃ p, IsLast passes p ∧ e ∈ (p.schema createId).edges

variable {createId} {passes : List Pass} {g : Graph} {p q : Pass}

theorem separate_iff : Separate createId passes ↔ (∀ p ∈ passes, (p.schema createId).ids.Nodup) ∧
    (∀ p ∈ passes, ∀ q ∈ passes, ∀ x ∈ (p.schema createId).ids, x ∈ (q.schema createId).ids → p.id = q.id) ∧
    ∀ p ∈ passes, ∀ q ∈ passes, p.id ∉ (q.schema createId).ids :=
  ⟨fun h => ⟨h.nodup, h.apart, h.not_file⟩, fun ⟨hnodup, hapart, hfile⟩ => ⟨hnodup, hapart, hfile⟩⟩

instance : DecidablePred (Separate createId) := fun _ => decidable_of_iff _ separate_iff.symm

theorem Separate.mono {more : List Pass} (h : Separate createId more) (hsub : passes ⊆ more) :
    Separate createId passes :=
  ⟨fun p hp => h.nodup p (hsub hp), fun p hp q hq => h.apart p (hsub hp) q (hsub hq),
    fun p hp q hq => h.not_file p (hsub hp) q (hsub hq)⟩

theorem mem_ids_of_mem_entries {x : String} {attrs : Record} (h : (x, attrs) ∈ (p.schema createId).entries) :
    x ∈ (p.schema createId).ids := by
  rw [← Schema.names_entries]
  exact List.mem_map_of_mem (f := Prod.fst) h

/-! ## What a graph holds -/

/-- Some node was emitted in the last pass of a file. -/
def Emitted (createId : String → String) (passes : List Pass) (file x : String) : Prop :=
  ∃ p, IsLast passes p ∧ p.id = file ∧ x ∈ (p.schema createId).ids

theorem Holds.mem_ids (h : Holds createId passes g) {x : String} : x ∈ g.ids ↔
    (∃ p ∈ passes, p.id = x) ∨ ∃ file, Emitted createId passes file x := by
  constructor
  · intro hx
    obtain ⟨⟨y, attrs⟩, hmem, rfl⟩ := List.mem_map.mp hx
    rcases (h.mem_nodes y attrs).mp hmem with ⟨p, hp, hid, -⟩ | ⟨p, hp, hentry⟩
    · exact Or.inl ⟨p, hp, hid⟩
    · exact Or.inr ⟨p.id, p, hp, rfl, mem_ids_of_mem_entries hentry⟩
  · rintro (⟨p, hp, rfl⟩ | ⟨file, p, hp, -, hx⟩)
    · exact List.mem_map_of_mem (f := Prod.fst) ((h.mem_nodes _ _).mpr (Or.inl ⟨p, hp, rfl, rfl⟩))
    · rw [← Schema.names_entries] at hx
      obtain ⟨⟨y, attrs⟩, hentry, rfl⟩ := List.mem_map.mp hx
      exact List.mem_map_of_mem (f := Prod.fst) ((h.mem_nodes _ _).mpr (Or.inr ⟨p, hp, hentry⟩))

theorem Holds.closed (h : Holds createId passes g) : g.Closed := by
  intro e he
  obtain ⟨p, hp, hedge⟩ := (h.mem_edges e).mp he
  exact h.mem_ids.mpr (Or.inr ⟨p.id, p, hp, rfl, (p.rooted createId).target_mem e hedge⟩)

theorem Holds.getD_file (h : Holds createId passes g)
    (hseparate : ∀ q ∈ passes, p.id ∉ (q.schema createId).ids) :
    (Fields.get? g.nodes p.id).getD [] = fileState passes p.id := by
  cases hget : Fields.get? g.nodes p.id with
  | some attrs =>
    rcases (h.mem_nodes _ _).mp (Fields.mem_of_get? hget) with ⟨-, -, -, hstate⟩ | ⟨q, hq, hentry⟩
    · exact hstate.symm
    · exact absurd (mem_ids_of_mem_entries hentry) (hseparate q hq.mem)
  | none =>
    have hnone : ofFile passes p.id = [] := by
      refine List.filter_eq_nil_iff.mpr fun q hq hid => ?_
      have hmem : p.id ∈ g.ids := h.mem_ids.mpr (Or.inl ⟨q, hq, of_decide_eq_true hid⟩)
      exact Fields.get?_eq_none_iff.mp hget hmem
    rw [fileState, hnone]
    rfl

/-- **The descendants of a file are what its last pass emitted.** -/
theorem Holds.mem_descendants_iff (h : Holds createId passes g) (hseparate : Separate createId passes)
    (hp : p ∈ passes) {x : String} : x ∈ g.descendants p.id ↔ Emitted createId passes p.id x := by
  rw [Graph.mem_descendants_iff h.closed]
  constructor
  · rintro ⟨hne, hleads⟩
    have hclosed : ∀ e ∈ g.edges, (e.source = p.id ∨ Emitted createId passes p.id e.source) →
        e.target = p.id ∨ Emitted createId passes p.id e.target := by
      intro e he hsource
      obtain ⟨q, hq, hedge⟩ := (h.mem_edges e).mp he
      refine Or.inr ⟨q, hq, ?_, (q.rooted createId).target_mem e hedge⟩
      -- the edge starts at the file of `q` or at a node of `q`, and both belong to one file
      rcases hsource with hsource | ⟨r, hr, hrid, hsource⟩
      · rcases (q.rooted createId).source_mem e hedge with hfile | hmem
        · exact hfile.symm.trans hsource
        · exact absurd (hsource ▸ hmem) (hseparate.not_file p hp q hq.mem)
      · rcases (q.rooted createId).source_mem e hedge with hfile | hmem
        · exact absurd (hfile ▸ hsource) (hseparate.not_file q hq.mem r hr.mem)
        · exact (hseparate.apart q hq.mem r hr.mem _ hmem hsource).trans hrid
    have hx :=
      Leads.induction (S := fun y => y = p.id ∨ Emitted createId passes p.id y) hclosed hleads (Or.inl rfl)
    exact hx.resolve_left hne
  · rintro ⟨q, hq, hid, hx⟩
    refine ⟨fun heq => hseparate.not_file p hp q hq.mem (heq ▸ hx), ?_⟩
    have hsub : (q.schema createId).edges ⊆ g.edges := fun e he => (h.mem_edges e).mpr ⟨q, hq, he⟩
    have hleads := (q.rooted createId).leads x hx
    rw [hid] at hleads
    exact hleads.mono hsub

/-! ## One more pass -/

section

variable (h : Holds createId passes g) (hseparate : Separate createId (passes ++ [p]))

include hseparate in
theorem Separate.file_notMem : ∀ q ∈ passes, p.id ∉ (q.schema createId).ids := fun q hq =>
  hseparate.not_file p (List.mem_append_right _ (List.mem_singleton_self p)) q (List.mem_append_left _ hq)

include hseparate in
theorem Separate.not_emitted_file (hq : q ∈ passes) : ¬ Emitted createId passes p.id q.id := by
  rintro ⟨r, hr, -, hmem⟩
  exact hseparate.not_file q (List.mem_append_left _ hq) r (List.mem_append_left _ hr.mem) hmem

include hseparate in
theorem Separate.not_emitted (hq : IsLast passes q) (hne : q.id ≠ p.id) {x : String}
    (hx : x ∈ (q.schema createId).ids) : ¬ Emitted createId passes p.id x := by
  rintro ⟨r, hr, hid, hmem⟩
  have hpasses := hseparate.mono (List.subset_append_left passes [p])
  exact hne ((hpasses.apart q hq.mem r hr.mem x hx hmem).trans hid)

include h in
theorem Holds.nodup_ids_removeFileNodes (file : String) : (g.removeFileNodes file).1.ids.Nodup :=
  h.nodup_ids.sublist (List.Sublist.map _ (Graph.removeFileNodes_sublist g file).1)

include h in
theorem Holds.nodup_ids_resetFile (id : String) (file : Record) : (g.resetFile id file).ids.Nodup :=
  Graph.nodup_ids_putNode (h.nodup_ids_removeFileNodes id) ..

include h in
theorem Holds.nodup_ends_resetFile (id : String) (file : Record) :
    ((g.resetFile id file).edges.map Edge.ends).Nodup :=
  h.nodup_ends.sublist (List.Sublist.map _ (Graph.removeFileNodes_sublist g id).2)

include h hseparate

theorem Holds.hasNode_iff : g.hasNode p.id = true ↔ ∃ q ∈ passes, q.id = p.id := by
  rw [Graph.hasNode, Fields.has_iff]
  refine Iff.trans h.mem_ids (or_iff_left ?_)
  rintro ⟨file, q, hq, -, hmem⟩
  exact hseparate.file_notMem q hq.mem hmem

theorem Holds.mem_nodes_removeFileNodes {x : String} {attrs : Record} :
    (x, attrs) ∈ (g.removeFileNodes p.id).1.nodes ↔ (x, attrs) ∈ g.nodes ∧
      ¬ Emitted createId passes p.id x := by
  rw [Graph.removeFileNodes]
  split_ifs with hnode
  · obtain ⟨q, hq, hid⟩ := (h.hasNode_iff hseparate).mp hnode
    rw [← hid, Graph.mem_nodes_remove, h.mem_descendants_iff (hseparate.mono (List.subset_append_left ..)) hq]
  · refine (and_iff_left ?_).symm
    rintro ⟨q, hq, hid, -⟩
    exact hnode ((h.hasNode_iff hseparate).mpr ⟨q, hq.mem, hid⟩)

theorem Holds.mem_edges_removeFileNodes {e : Edge} : e ∈ (g.removeFileNodes p.id).1.edges ↔
    e ∈ g.edges ∧ ¬ Emitted createId passes p.id e.source ∧ ¬ Emitted createId passes p.id e.target := by
  rw [Graph.removeFileNodes]
  split_ifs with hnode
  · obtain ⟨q, hq, hid⟩ := (h.hasNode_iff hseparate).mp hnode
    have hiff := fun x => h.mem_descendants_iff (x := x) (hseparate.mono (List.subset_append_left ..)) hq
    rw [← hid, Graph.mem_edges_remove, hiff, hiff]
  · refine (and_iff_left ?_).symm
    constructor
    all_goals
      rintro ⟨q, hq, hid, -⟩
      exact hnode ((h.hasNode_iff hseparate).mpr ⟨q, hq.mem, hid⟩)

theorem Holds.mem_nodes_resetFile {x : String} {attrs : Record} :
    (x, attrs) ∈ (g.resetFile p.id p.file).nodes ↔
      if x = p.id then fileState (passes ++ [p]) p.id = attrs
      else (x, attrs) ∈ g.nodes ∧ ¬ Emitted createId passes p.id x := by
  have hfile : ¬ Emitted createId passes p.id p.id := by
    rintro ⟨q, hq, -, hmem⟩
    exact hseparate.file_notMem q hq.mem hmem
  have hget : Fields.get? (g.removeFileNodes p.id).1.nodes p.id = Fields.get? g.nodes p.id := by
    refine Option.ext fun attrs => ?_
    rw [← Fields.mem_iff_get? (h.nodup_ids_removeFileNodes p.id), ← Fields.mem_iff_get? h.nodup_ids,
      h.mem_nodes_removeFileNodes hseparate]
    exact and_iff_left hfile
  rw [Graph.resetFile, Graph.mem_putNode (h.nodup_ids_removeFileNodes p.id), hget,
    h.getD_file hseparate.file_notMem, ← fileState_concat_self, h.mem_nodes_removeFileNodes hseparate]

theorem Holds.mem_edges_resetFile {e : Edge} : e ∈ (g.resetFile p.id p.file).edges ↔
    ∃ q, (q.id ≠ p.id ∧ IsLast passes q) ∧ e ∈ (q.schema createId).edges := by
  refine Iff.trans (h.mem_edges_removeFileNodes hseparate) ?_
  rw [h.mem_edges]
  constructor
  · rintro ⟨⟨q, hq, he⟩, -, htarget⟩
    refine ⟨q, ⟨fun hid => htarget ⟨q, hq, hid, ?_⟩, hq⟩, he⟩
    exact (q.rooted createId).target_mem e he
  · rintro ⟨q, ⟨hne, hq⟩, he⟩
    refine ⟨⟨q, hq, he⟩, ?_, hseparate.not_emitted hq hne ((q.rooted createId).target_mem e he)⟩
    rcases (q.rooted createId).source_mem e he with hfile | hmem
    · rw [hfile]
      exact hseparate.not_emitted_file hq.mem
    · exact hseparate.not_emitted hq hne hmem

theorem Holds.notMem_schema {x : String} (hx : x ∈ (g.resetFile p.id p.file).ids) :
    x ∉ (p.schema createId).ids := by
  have hp : p ∈ passes ++ [p] := List.mem_append_right _ (List.mem_singleton_self p)
  intro hmem
  obtain ⟨⟨y, attrs⟩, hnode, rfl⟩ := List.mem_map.mp hx
  rw [h.mem_nodes_resetFile hseparate] at hnode
  split_ifs at hnode with hy
  · exact hseparate.not_file p hp p hp (hy ▸ hmem)
  · have hy : y ∈ g.ids := List.mem_map_of_mem (f := Prod.fst) hnode.1
    rcases h.mem_ids.mp hy with ⟨q, hq, rfl⟩ | ⟨_, q, hq, rfl, hqmem⟩
    · exact hseparate.not_file q (List.mem_append_left _ hq) p hp hmem
    · have hid := hseparate.apart q (List.mem_append_left _ hq.mem) p hp y hqmem hmem
      exact hnode.2 ⟨q, hq, hid, hqmem⟩

/-- Old nodes that stay and new ones are those that the last passes emit. -/
theorem Holds.mem_nodes_or_entries {x : String} {attrs : Record} :
    (x, attrs) ∈ (g.resetFile p.id p.file).nodes ∨ (x, attrs) ∈ (p.schema createId).entries ↔
      (∃ q ∈ passes ++ [p], q.id = x ∧ fileState (passes ++ [p]) x = attrs) ∨
        ∃ q, IsLast (passes ++ [p]) q ∧ (x, attrs) ∈ (q.schema createId).entries := by
  rw [h.mem_nodes_resetFile hseparate]
  simp only [isLast_concat_iff, List.mem_append, List.mem_singleton]
  constructor
  · rintro (hreset | hentry)
    · split_ifs at hreset with hx
      · subst hx
        exact Or.inl ⟨p, Or.inr rfl, rfl, hreset⟩
      · obtain ⟨hnode, hnot⟩ := hreset
        rcases (h.mem_nodes x attrs).mp hnode with ⟨q, hq, hid, hstate⟩ | ⟨q, hq, hentry⟩
        · exact Or.inl ⟨q, Or.inl hq, hid, (fileState_concat_of_ne (Ne.symm hx)).trans hstate⟩
        · have hne : q.id ≠ p.id := fun hid => hnot ⟨q, hq, hid, mem_ids_of_mem_entries hentry⟩
          exact Or.inr ⟨q, Or.inr ⟨hne, hq⟩, hentry⟩
    · exact Or.inr ⟨p, Or.inl rfl, hentry⟩
  · rintro (⟨q, hq, rfl, hstate⟩ | ⟨q, rfl | ⟨hne, hq⟩, hentry⟩)
    · left
      by_cases hid : q.id = p.id
      · rw [if_pos hid, ← hid]
        exact hstate
      · have hq : q ∈ passes := hq.resolve_right fun heq => hid (heq ▸ rfl)
        rw [if_neg hid, h.mem_nodes]
        rw [fileState_concat_of_ne (Ne.symm hid)] at hstate
        exact ⟨Or.inl ⟨q, hq, rfl, hstate⟩, hseparate.not_emitted_file hq⟩
    · exact Or.inr hentry
    · left
      have hmem := mem_ids_of_mem_entries hentry
      have hx : x ≠ p.id := fun heq => hseparate.file_notMem q hq.mem (heq ▸ hmem)
      rw [if_neg hx, h.mem_nodes]
      exact ⟨Or.inr ⟨q, hq, hentry⟩, hseparate.not_emitted hq hne hmem⟩

/-- **One more pass puts what it emits in place of what the last pass of the file emitted.** -/
theorem Holds.replace : Holds createId (passes ++ [p]) (p.replace createId g) := by
  have hp : p ∈ passes ++ [p] := List.mem_append_right _ (List.mem_singleton_self p)
  have hrooted := p.rooted createId
  have hnodup : ((g.resetFile p.id p.file).ids ++ (p.schema createId).ids).Nodup :=
    List.nodup_append.mpr ⟨h.nodup_ids_resetFile p.id p.file, hseparate.nodup p hp, fun x hx y hy heq =>
      h.notMem_schema hseparate hx (heq ▸ hy)⟩
  have hfile : p.id ∈ (g.resetFile p.id p.file).ids := (Graph.mem_ids_putNode ..).mpr (Or.inl rfl)
  have hends : ∀ e ∈ (p.schema createId).edges,
      (e.source ∈ (g.resetFile p.id p.file).ids ∨ e.source ∈ (p.schema createId).ids) ∧
        e.target ∈ (p.schema createId).ids := by
    intro e he
    refine ⟨(hrooted.source_mem e he).imp_left fun heq => ?_, hrooted.target_mem e he⟩
    rw [heq]
    exact hfile
  have hedges := h.nodup_ends_resetFile p.id p.file
  -- an old edge that is left leads to a node of another file, so it lies between other nodes
  have hagree : Graph.Agree (g.resetFile p.id p.file).edges (p.schema createId).edges := by
    rintro e he f (hf | hf) heq
    · obtain ⟨q, ⟨hne, hq⟩, hf⟩ := (h.mem_edges_resetFile hseparate).mp hf
      have htarget : f.target = e.target := (Graph.ends_eq_iff.mp heq).2
      refine absurd (hseparate.apart q (List.mem_append_left _ hq.mem) p hp f.target ?_ ?_) hne
      · exact (q.rooted createId).target_mem f hf
      · exact htarget ▸ hrooted.target_mem e he
    · exact hrooted.eq_of_ends (hseparate.nodup p hp) f hf e he heq
  have hnodes := Graph.nodes_addSchema hnodup hrooted.distinct hends
  refine ⟨?_, Graph.nodup_ends_addSchema hnodup hrooted.distinct hends hedges, fun x attrs => ?_, fun e => ?_⟩
  · have hids : (p.replace createId g).ids = (g.resetFile p.id p.file).ids ++ (p.schema createId).ids := by
      rw [Pass.replace, Graph.replaceFileNodes, Graph.ids, hnodes, Fields.names, List.map_append,
        ← Schema.names_entries]
      rfl
    rw [hids]
    exact hnodup
  · rw [Pass.replace, Graph.replaceFileNodes, hnodes, List.mem_append]
    exact h.mem_nodes_or_entries hseparate
  · rw [Pass.replace, Graph.replaceFileNodes,
      Graph.mem_edges_addSchema hnodup hrooted.distinct hends hedges hagree, h.mem_edges_resetFile hseparate]
    simp only [isLast_concat_iff]
    constructor
    · rintro (⟨q, hq, he⟩ | he)
      · exact ⟨q, Or.inr hq, he⟩
      · exact ⟨p, Or.inl rfl, he⟩
    · rintro ⟨q, rfl | hq, he⟩
      · exact Or.inr he
      · exact Or.inl ⟨q, hq, he⟩

end

/-! ## All passes -/

theorem holds_nil : Holds createId [] Graph.empty := by
  refine ⟨List.nodup_nil, List.nodup_nil, fun x attrs => iff_of_false List.not_mem_nil ?_,
    fun e => iff_of_false List.not_mem_nil ?_⟩
  · rintro (⟨p, hp, -⟩ | ⟨p, hp, -⟩)
    · exact List.not_mem_nil hp
    · exact List.not_mem_nil hp.mem
  · rintro ⟨p, hp, -⟩
    exact List.not_mem_nil hp.mem

/-- **A run leaves what the last pass of each file emits.** -/
theorem holds_foldl (hseparate : Separate createId passes) :
    Holds createId passes (passes.foldl (fun g p => p.replace createId g) Graph.empty) := by
  induction passes using List.reverseRecOn with
  | nil => exact holds_nil
  | append_singleton passes p ih =>
    rw [List.foldl_append]
    exact (ih (hseparate.mono (List.subset_append_left ..))).replace hseparate

theorem Holds.perm {others : List Pass} {g' : Graph} (h : Holds createId passes g)
    (h' : Holds createId others g') (hlast : ∀ p, IsLast passes p ↔ IsLast others p)
    (hstate : ∀ id, fileState passes id = fileState others id) :
    g.nodes.Perm g'.nodes ∧ g.edges.Perm g'.edges := by
  have hfile : ∀ x, (∃ p ∈ passes, p.id = x) ↔ ∃ p ∈ others, p.id = x := by
    intro x
    constructor
    · rintro ⟨p, hp, rfl⟩
      obtain ⟨q, hq, hid⟩ := exists_isLast hp
      exact ⟨q, ((hlast q).mp hq).mem, hid⟩
    · rintro ⟨p, hp, rfl⟩
      obtain ⟨q, hq, hid⟩ := exists_isLast hp
      exact ⟨q, ((hlast q).mpr hq).mem, hid⟩
  constructor
  · rw [List.perm_ext_iff_of_nodup (List.Nodup.of_map _ h.nodup_ids) (List.Nodup.of_map _ h'.nodup_ids)]
    rintro ⟨x, attrs⟩
    simp only [h.mem_nodes, h'.mem_nodes, ← and_assoc, hlast, hstate, exists_and_right, hfile]
  · rw [List.perm_ext_iff_of_nodup (List.Nodup.of_map _ h.nodup_ends) (List.Nodup.of_map _ h'.nodup_ends)]
    intro e
    simp only [h.mem_edges, h'.mem_edges, hlast]

/-- **The order of passes of different files does not matter.** -/
theorem perm_of_ofFile_eq (hseparate : Separate createId passes) {others : List Pass}
    (hsame : ∀ id, ofFile others id = ofFile passes id) (h : Holds createId passes g) :
    ∃ other, run createId others = .ok other ∧ other.nodes.Perm g.nodes ∧ other.edges.Perm g.edges := by
  have hsub : others ⊆ passes := by
    intro p hp
    have hmem : p ∈ ofFile others p.id := List.mem_filter.mpr ⟨hp, decide_eq_true rfl⟩
    rw [hsame] at hmem
    exact (List.mem_filter.mp hmem).1
  refine ⟨_, foldlM_apply createId others Graph.empty, ?_⟩
  refine (holds_foldl (hseparate.mono hsub)).perm h (fun p => ?_) fun id => ?_
  · rw [IsLast, IsLast, hsame]
  · rw [fileState, fileState, hsame]

theorem IsLast.isLast_concat_iff (hp : IsLast passes p) : IsLast (passes ++ [p]) q ↔ IsLast passes q := by
  rw [Pass.isLast_concat_iff]
  constructor
  · rintro (rfl | ⟨-, hq⟩)
    · exact hp
    · exact hq
  · intro hq
    by_cases hid : q.id = p.id
    · rw [IsLast, hid] at hq
      exact Or.inl (Option.some_inj.mp (hq.symm.trans hp))
    · exact Or.inr ⟨hid, hq⟩

/-- **The last pass of a file changes nothing when it is repeated.** -/
theorem perm_of_isLast (hseparate : Separate createId passes) (hp : IsLast passes p)
    (h : Holds createId passes g) : ∃ again, run createId (passes ++ [p]) = .ok again ∧
      again.nodes.Perm g.nodes ∧ again.edges.Perm g.edges := by
  have hsub : passes ++ [p] ⊆ passes :=
    List.append_subset.mpr ⟨fun q hq => hq, List.cons_subset.mpr ⟨hp.mem, List.nil_subset _⟩⟩
  refine ⟨_, foldlM_apply createId _ Graph.empty, ?_⟩
  exact (holds_foldl (hseparate.mono hsub)).perm h (fun q => hp.isLast_concat_iff)
    (fileState_concat_of_isLast hp)

/-- The node of a file has the kind of files, the most recent values of its passes, and nothing else. -/
theorem Holds.get?_file (h : Holds createId passes g) (hp : p ∈ passes) :
    ∃ attrs, Fields.get? g.nodes p.id = some attrs ∧ Fields.get? attrs "kind" = some (.str "File") ∧
      (∀ key ∈ Graph.fileKeys, Fields.get? attrs key = latest passes p.id key) ∧
      ∀ key, key ∉ "kind" :: Graph.fileKeys → Fields.get? attrs key = none := by
  have hnode : (p.id, fileState passes p.id) ∈ g.nodes := (h.mem_nodes _ _).mpr (Or.inl ⟨p, hp, rfl, rfl⟩)
  exact ⟨_, (Fields.mem_iff_get? h.nodup_ids).mp hnode, get?_fileState_kind hp,
    fun _ => get?_fileState_of_mem passes p.id, fun _ => get?_fileState_of_notMem passes p.id⟩

variable (createId)

/-- **After passes over any files in any order, a graph holds the nodes and edges that the last pass of each
file emits, with their own attributes, and the node of each file with its most recent values. The order of
passes of different files does not matter, and a repeated last pass changes nothing.** -/
theorem run_leaves_last_passes (passes : List Pass) (hseparate : Separate createId passes) :
    ∃ g, run createId passes = .ok g ∧ g.ids.Nodup ∧ (g.edges.map Edge.ends).Nodup ∧
      (∀ x attrs, (∀ p ∈ passes, p.id ≠ x) → ((x, attrs) ∈ g.nodes ↔
        ∃ p, IsLast passes p ∧
          ∃ node ∈ (p.schema createId).nodes, node.id = x ∧ attributes node.fields = attrs)) ∧
      (∀ e, e ∈ g.edges ↔ ∃ p, IsLast passes p ∧ e ∈ (p.schema createId).edges) ∧
      (∀ p ∈ passes, ∃ attrs, Fields.get? g.nodes p.id = some attrs ∧
        Fields.get? attrs "kind" = some (.str "File") ∧
        (∀ key ∈ Graph.fileKeys, Fields.get? attrs key = latest passes p.id key) ∧
        ∀ key, key ∉ "kind" :: Graph.fileKeys → Fields.get? attrs key = none) ∧
      (∀ others, (∀ id, ofFile others id = ofFile passes id) →
        ∃ other, run createId others = .ok other ∧ other.nodes.Perm g.nodes ∧ other.edges.Perm g.edges) ∧
      ∀ p, IsLast passes p →
        ∃ again, run createId (passes ++ [p]) = .ok again ∧ again.nodes.Perm g.nodes ∧
          again.edges.Perm g.edges := by
  have h := holds_foldl hseparate
  refine ⟨_, foldlM_apply createId passes Graph.empty, h.nodup_ids, h.nodup_ends, fun x attrs hx => ?_,
    h.mem_edges, fun p hp => h.get?_file hp, fun others hsame => perm_of_ofFile_eq hseparate hsame h,
    fun p hp => perm_of_isLast hseparate hp h⟩
  have hfile : ¬ ∃ p ∈ passes, p.id = x ∧ fileState passes x = attrs := fun ⟨p, hp, hid, _⟩ => hx p hp hid
  rw [h.mem_nodes, or_iff_right hfile]
  simp only [Schema.entries, List.mem_map, Prod.mk.injEq]

/-- A pass over a file with one component, which has one prop; both share a description. -/
def samplePass (extension : Json) (name : String) : Pass where
  file := [("id", .str "a"), ("extension", extension)]
  components := [[("displayName", .str name), ("description", .str "Words"),
    ("props", .arr [.obj [("name", .str "size"), ("description", .str "Words")]])]]
  hasId := rfl
  named := by
    intro component hcomponent
    rw [List.mem_singleton.mp hcomponent, PropsNamed]
    exact fun prop hprop => List.mem_singleton.mp hprop ▸ rfl
  distinct := by
    intro component hcomponent
    rw [List.mem_singleton.mp hcomponent, FieldsDistinct]
    refine ⟨(by decide : ["displayName", "description", "props"].Nodup), fun prop hprop => ?_⟩
    rw [List.mem_singleton.mp hprop]
    exact (by decide : ["name", "description"].Nodup)

/-- A pass over another file. -/
def otherPass : Pass where
  file := [("id", .str "b")]
  components := [[("displayName", .str "Box")]]
  hasId := rfl
  named := fun component hcomponent => by
    rw [List.mem_singleton.mp hcomponent]
    exact fun prop hprop => absurd hprop List.not_mem_nil
  distinct := fun component hcomponent => by
    rw [List.mem_singleton.mp hcomponent]
    exact ⟨by decide, fun prop hprop => absurd hprop List.not_mem_nil⟩

/-- Two passes over a file, the second without an extension, with a pass over another file between them. -/
def samplePasses : List Pass := [samplePass (.str "js") "Box", otherPass, samplePass .null "Button"]

theorem run_samplePasses : Separate nodeId samplePasses ∧ ∃ g, run nodeId samplePasses = .ok g ∧
    (∀ e, e ∈ g.edges ↔ ∃ p, IsLast samplePasses p ∧ e ∈ (p.schema nodeId).edges) ∧
    ∀ p ∈ samplePasses, ∃ attrs, Fields.get? g.nodes p.id = some attrs ∧
      Fields.get? attrs "extension" = latest samplePasses p.id "extension" := by
  have hseparate : Separate nodeId samplePasses := by decide +kernel
  obtain ⟨g, hrun, -, -, -, hedges, hfiles, -, -⟩ := run_leaves_last_passes nodeId samplePasses hseparate
  refine ⟨hseparate, g, hrun, hedges, fun p hp => ?_⟩
  obtain ⟨attrs, hattrs, -, hlatest, -⟩ := hfiles p hp
  exact ⟨attrs, hattrs, hlatest "extension" (by decide)⟩

end ComponentDocs.Pass

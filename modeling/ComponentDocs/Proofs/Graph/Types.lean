import ComponentDocs.Proofs.Graph.Apart
import ComponentDocs.Proofs.Json.Equality
import ComponentDocs.Proofs.Json.RoundTrip
import ComponentDocs.Proofs.Traversal

/-!
# Nodes of an internal type

The internal type of a node stands in a JSON text beside any description text, and a query for the nodes of a type reads
this text back.

* `Record.Readable`, `Graph.Readable`: the texts under `internal` can be read; `Graph.Readable.nodesOfType`: a query
  then finds the nodes that have the type;
* `EmittedNode.hasType_attributes`: the type of an emitted node is read back, whatever its description;
* `Pass.readable_foldl`: passes over any files leave texts that can be read;
* **`nodesOfType_of_run`**: what a query finds after a run;
* `nodesOfType_of_sharedPasses`: a file that has the identifier of a node of another file.
-/

namespace ComponentDocs

/-! ## Texts that can be read -/

/-- The text under `internal` can be read, if there is one. -/
def Record.Readable (attrs : Record) : Prop :=
  ∀ text, Record.text? attrs "internal" = some text → ∃ value, Json.read text = .ok value

namespace Record

variable {attrs more : Record}

theorem hasType_of_none (h : text? attrs "internal" = none) (type : Json) : Graph.hasType type attrs = .ok false := by
  rw [Graph.hasType, h]

theorem hasType_of_text {text : String} {value : Json} (h : text? attrs "internal" = some text)
    (hread : Json.read text = .ok value) (type : Json) :
    Graph.hasType type attrs = .ok (get value.fields "type" == type) := by
  rw [Graph.hasType, h]
  dsimp only
  rw [hread]
  rfl

theorem text?_of_none {key : String} (h : Fields.get? attrs key = none) : text? attrs key = none := by
  rw [text?, filled?, h]
  rfl

theorem readable_of_none (h : Fields.get? attrs "internal" = none) : Readable attrs := by
  intro text htext
  rw [text?_of_none h] at htext
  exact absurd htext (Option.some_ne_none text).symm

theorem readable_nil : Readable [] := readable_of_none rfl

theorem Readable.merge (h : Readable attrs) (hmore : Readable more) (hnodup : (Fields.names more).Nodup) :
    Readable (Fields.merge attrs more) := by
  intro text htext
  have hmerge : Fields.get? (Fields.merge attrs more) "internal" =
      (Fields.get? more "internal").or (Fields.get? attrs "internal") := by
    rw [Fields.get?_merge, Fields.get?_reverse hnodup]
  rw [text?, filled?, hmerge] at htext
  cases hget : Fields.get? more "internal" with
  | none =>
    rw [hget, Option.none_or] at htext
    exact h text htext
  | some value =>
    rw [hget, Option.some_or, ← hget] at htext
    exact hmore text htext

theorem Readable.exists_hasType (h : Readable attrs) (type : Json) : ∃ has, Graph.hasType type attrs = .ok has := by
  cases htext : text? attrs "internal" with
  | none => exact ⟨false, hasType_of_none htext type⟩
  | some text =>
    obtain ⟨value, hvalue⟩ := h text htext
    exact ⟨_, hasType_of_text htext hvalue type⟩

theorem sound_of_texts (hnodup : (Fields.names attrs).Nodup) (h : ∀ field ∈ attrs, ∃ text, field.2 = .str text) :
    Sound attrs := by
  refine ⟨hnodup, fun field hfield => ?_⟩
  obtain ⟨text, htext⟩ := h field hfield
  rw [htext]
  exact Json.sound_str text

end Record

namespace EmittedNode

theorem exists_internal (node : EmittedNode) : ∃ internal, Fields.get? node.record "internal" = some (.obj internal) ∧
    Record.Sound internal ∧ Record.get internal "type" = .str node.type := by
  cases node with
  | component id parent digest payload props text =>
    refine ⟨[("type", .str "ComponentMetadata"), ("content_digest", .str digest)], ?_, ?_, rfl⟩
    · cases text <;> exact get?_merge_own rfl
    · exact Record.sound_of_texts (by decide : ["type", "content_digest"].Nodup) (by simp)
  | prop id parent digest payload text =>
    refine ⟨[("type", .str "ComponentProp"), ("content_digest", .str digest)], ?_, ?_, rfl⟩
    · cases text <;> exact get?_merge_own rfl
    · exact Record.sound_of_texts (by decide : ["type", "content_digest"].Nodup) (by simp)
  | description id parent digest text =>
    refine ⟨_, rfl, ?_, rfl⟩
    exact Record.sound_of_texts (by decide : ["type", "media_type", "content", "content_digest"].Nodup) (by simp)

theorem exists_text (node : EmittedNode) : ∃ text internal,
    Record.text? (attributes node.record) "internal" = some text ∧ Json.read text = .ok (.obj internal) ∧
      Record.get internal "type" = .str node.type := by
  obtain ⟨internal, hinternal, hsound, htype⟩ := node.exists_internal
  refine ⟨(Json.obj internal).compactText, internal, ?_, Json.read_compactText (Record.sound_obj_iff.mpr hsound), htype⟩
  have hget : Fields.get? (attributes node.record) "internal" = some (.str (Json.obj internal).compactText) := by
    rw [attributes, Fields.get?_map, Fields.get?_erase, if_neg (by decide), hinternal]
    rfl
  have hne : (Json.obj internal).compactText ≠ "" := by
    cases internal <;> simp [Json.compactText, Json.compact]
  rw [Record.text?, Record.filled?, hget, Option.filter_some_pos (by simpa [Json.isEmptyValue] using hne)]
  rfl

/-- **The type of an emitted node is read back from its attributes**, whatever its description. -/
theorem hasType_attributes (node : EmittedNode) (type : Json) :
    Graph.hasType type (attributes node.record) = .ok (Json.str node.type == type) := by
  obtain ⟨text, internal, htext, hread, htype⟩ := node.exists_text
  rw [Record.hasType_of_text htext hread, ← htype]
  rfl

theorem readable_attributes (node : EmittedNode) : Record.Readable (attributes node.record) := by
  obtain ⟨text, internal, htext, hread, -⟩ := node.exists_text
  intro other hother
  obtain rfl : text = other := Option.some_inj.mp (htext.symm.trans hother)
  exact ⟨_, hread⟩

end EmittedNode

/-! ## Queries -/

namespace Graph

variable {g : Graph} {attrs : Record}

/-- All texts under `internal` can be read. -/
def Readable (g : Graph) : Prop := ∀ node ∈ g.nodes, Record.Readable node.2

theorem readable_empty : empty.Readable := fun _ h => absurd h List.not_mem_nil

/-- **A query finds the nodes that have the type.** -/
theorem Readable.nodesOfType (h : g.Readable) (type : Json) : ∃ found, g.nodesOfType type = .ok found ∧
    found.Sublist g.nodes ∧ ∀ node, node ∈ found ↔ node ∈ g.nodes ∧ hasType type node.2 = .ok true := by
  classical
  have hholds : ∀ node ∈ g.nodes, hasType type node.2 = .ok (decide (hasType type node.2 = .ok true)) := by
    intro node hnode
    obtain ⟨has, hhas⟩ := (h node hnode).exists_hasType type
    rw [hhas]
    cases has <;> simp
  refine ⟨_, filterM_eq_filter hholds, List.filter_sublist, fun node => ?_⟩
  rw [List.mem_filter, decide_eq_true_iff]

theorem Readable.putNode (h : g.Readable) (hattrs : Record.Readable attrs) (hnodup : (Fields.names attrs).Nodup)
    (id : String) : (g.putNode id attrs).Readable := by
  intro node hnode
  rcases Fields.mem_set hnode with rfl | hnode
  · refine Record.Readable.merge ?_ hattrs hnodup
    cases hget : Fields.get? g.nodes id with
    | none => exact Record.readable_nil
    | some old => exact h _ (Fields.mem_of_get? hget)
  · exact h node hnode

theorem Readable.putEdge (h : g.Readable) (e : Edge) : (g.putEdge e).Readable :=
  (h.putNode Record.readable_nil List.nodup_nil e.source).putNode Record.readable_nil List.nodup_nil e.target

theorem Readable.foldl_putEdge (h : g.Readable) (edges : List Edge) : (edges.foldl Graph.putEdge g).Readable := by
  induction edges generalizing g with
  | nil => exact h
  | cons e edges ih => exact ih (h.putEdge e)

theorem Readable.foldl_putNode (h : g.Readable) {nodes : List SchemaNode}
    (hnodes : ∀ node ∈ nodes, Record.Readable (attributes node.fields) ∧
      (Fields.names (attributes node.fields)).Nodup) :
    (nodes.foldl (fun g node => g.putNode node.id (attributes node.fields)) g).Readable := by
  induction nodes generalizing g with
  | nil => exact h
  | cons node nodes ih =>
    obtain ⟨hattrs, hnodup⟩ := hnodes node List.mem_cons_self
    exact ih (h.putNode hattrs hnodup node.id) fun other hother => hnodes other (List.mem_cons_of_mem _ hother)

theorem Readable.resetFile (h : g.Readable) (id : String) (file : Record) : (g.resetFile id file).Readable := by
  have hfile : Record.Readable (fileAttributes file) := by
    apply Record.readable_of_none
    rw [Pass.get?_fileAttributes, if_neg (by decide), if_neg (by decide)]
  refine Readable.putNode (fun node hnode => ?_) hfile (Pass.nodup_names_fileAttributes file) id
  exact h node ((removeFileNodes_sublist g id).1.subset hnode)

end Graph

namespace Pass

variable {createId : String → String} {passes : List Pass} {g : Graph} {p : Pass}

/-! ## Passes -/

theorem exists_emitted {node : SchemaNode} (h : node ∈ (p.schema createId).nodes) :
    ∃ emitted : EmittedNode, node = emitted.toSchemaNode := by
  obtain ⟨e, he, -⟩ := emit_eq_schema createId p.hasId p.named
  rw [schema, he] at h
  obtain ⟨emitted, -, rfl⟩ := List.mem_map.mp h
  exact ⟨emitted, rfl⟩

theorem readable_replace (h : g.Readable) (p : Pass) : (p.replace createId g).Readable := by
  refine ((h.resetFile p.id p.file).foldl_putNode fun node hnode => ⟨?_, ?_⟩).foldl_putEdge (p.schema createId).edges
  · obtain ⟨emitted, rfl⟩ := exists_emitted hnode
    exact emitted.readable_attributes
  · exact (p.rooted createId).distinct node hnode

variable (createId) in
/-- **Passes leave texts that can be read**, whatever the files and their descriptions. -/
theorem readable_foldl (passes : List Pass) :
    (passes.foldl (fun g p => p.replace createId g) Graph.empty).Readable := by
  induction passes using List.reverseRecOn with
  | nil => exact Graph.readable_empty
  | append_singleton passes p ih =>
    rw [List.foldl_append]
    exact readable_replace ih p

theorem hasType_fileState (passes : List Pass) (id : String) (type : Json) :
    Graph.hasType type (fileState passes id) = .ok false :=
  Record.hasType_of_none (Record.text?_of_none (get?_fileState_of_notMem passes id (by decide))) type

theorem hasType_iff {node : SchemaNode} (h : node ∈ (p.schema createId).nodes) (type : String) :
    Graph.hasType (.str type) (attributes node.fields) = .ok true ↔ node.type? = some type := by
  obtain ⟨emitted, rfl⟩ := exists_emitted h
  have hread : Graph.hasType (.str type) (attributes emitted.toSchemaNode.fields) =
      .ok (Json.str emitted.type == .str type) := emitted.hasType_attributes (.str type)
  rw [hread, EmittedNode.type?_toSchemaNode, Except.ok.injEq, beq_iff_eq, Json.str.injEq, Option.some_inj]

/-- The nodes of an internal type are those that the last pass of a file emits. -/
theorem Holds.hasType_iff (h : Holds createId passes g) {type x : String} {attrs : Record} :
    (x, attrs) ∈ g.nodes ∧ Graph.hasType (.str type) attrs = .ok true ↔
      ∃ p, IsLast passes p ∧ ∃ node ∈ (p.schema createId).nodes,
        node.type? = some type ∧ node.id = x ∧ attributes node.fields = attrs := by
  rw [h.mem_nodes]
  constructor
  · rintro ⟨⟨q, -, -, rfl⟩ | ⟨p, hp, hentry⟩, htype⟩
    · rw [hasType_fileState] at htype
      exact absurd htype (by simp)
    · obtain ⟨node, hnode, heq⟩ := List.mem_map.mp hentry
      obtain ⟨rfl, rfl⟩ := Prod.mk.inj heq
      exact ⟨p, hp, node, hnode, (Pass.hasType_iff hnode type).mp htype, rfl, rfl⟩
  · rintro ⟨p, hp, node, hnode, htype, rfl, rfl⟩
    exact ⟨Or.inr ⟨p, hp, List.mem_map.mpr ⟨node, hnode, rfl⟩⟩, (Pass.hasType_iff hnode type).mpr htype⟩

/-- **After passes over any files, every query for the nodes of an internal type succeeds. If the emitted identifiers are
distinct within a pass, belong to one file and are not those of files, it finds the nodes of the type that the last pass
of each file emits, with their attributes, each once, and the node of no file.** -/
theorem nodesOfType_of_run (createId : String → String) (passes : List Pass) :
    ∃ g, run createId passes = .ok g ∧ (∀ type, ∃ found, g.nodesOfType type = .ok found) ∧
      (Separate createId passes → ∀ type, ∃ found, g.nodesOfType (.str type) = .ok found ∧
        (found.map Prod.fst).Nodup ∧
        (∀ x attrs, (x, attrs) ∈ found ↔ ∃ p, IsLast passes p ∧ ∃ node ∈ (p.schema createId).nodes,
          node.type? = some type ∧ node.id = x ∧ attributes node.fields = attrs) ∧
        ∀ p ∈ passes, p.id ∉ found.map Prod.fst) := by
  have hreadable := readable_foldl createId passes
  refine ⟨_, foldlM_apply createId passes Graph.empty, fun type => ?_, fun hseparate type => ?_⟩
  · obtain ⟨found, hfound, -⟩ := hreadable.nodesOfType type
    exact ⟨found, hfound⟩
  · have h := holds_foldl hseparate
    obtain ⟨found, hfound, hsub, hmem⟩ := hreadable.nodesOfType (.str type)
    have hiff := fun x attrs => (hmem (x, attrs)).trans h.hasType_iff
    refine ⟨found, hfound, h.nodup_ids.sublist (hsub.map Prod.fst), hiff, fun p hp hid => ?_⟩
    obtain ⟨⟨x, attrs⟩, hentry, rfl⟩ := List.mem_map.mp hid
    obtain ⟨q, hq, node, hnode, -, hx, -⟩ := (hiff _ _).mp hentry
    exact hseparate.not_file p hp q hq.mem (hx ▸ List.mem_map_of_mem hnode)

end Pass

/-- The prop of the component that is left is found. -/
theorem nodesOfType_of_samplePasses : Pass.Separate id Pass.samplePasses ∧ ∃ g found,
    Pass.run id Pass.samplePasses = .ok g ∧ g.nodesOfType (.str "ComponentProp") = .ok found ∧
      (found.map Prod.fst).Nodup ∧ "a--0--Button--ComponentMetadata--ComponentProp-size" ∈ found.map Prod.fst := by
  have hseparate : Pass.Separate id Pass.samplePasses := by decide +kernel
  obtain ⟨g, hrun, -, hfinds⟩ := Pass.nodesOfType_of_run id Pass.samplePasses
  obtain ⟨found, hfound, hnodup, hiff, -⟩ := hfinds hseparate "ComponentProp"
  obtain ⟨node, hnode, htype, hid⟩ : ∃ node ∈ ((Pass.samplePass .null "Button").schema id).nodes,
      node.type? = some "ComponentProp" ∧ node.id = "a--0--Button--ComponentMetadata--ComponentProp-size" := by
    decide +kernel
  have hmem := (hiff node.id _).mpr ⟨Pass.samplePass .null "Button", rfl, node, hnode, htype, rfl, rfl⟩
  exact ⟨hseparate, g, found, hrun, hfound, hnodup, hid ▸ List.mem_map_of_mem (f := Prod.fst) hmem⟩

/-- A file, another one that has the identifier of its component, and the first one again, without components. -/
def sharedPasses : List Pass :=
  [Pass.bare "a" "A" 1, Pass.bare "a--0--A--ComponentMetadata" "B" 1, Pass.bare "a" "A" 0]

/-- **A file that has the identifier of a node of another file is taken out with it, and what was emitted for the file is
found no more**, although no identifier is emitted twice or for two files. -/
theorem nodesOfType_of_sharedPasses : (∀ p ∈ sharedPasses, (p.schema id).ids.Nodup) ∧
    (∀ p ∈ sharedPasses, ∀ q ∈ sharedPasses, p.id ≠ q.id → List.Disjoint (p.schema id).ids (q.schema id).ids) ∧
    ∃ g, Pass.run id sharedPasses = .ok g ∧ g.nodesOfType (.str "ComponentMetadata") = .ok [] ∧
      ∃ p, Pass.IsLast sharedPasses p ∧ ∃ node ∈ (p.schema id).nodes, node.type? = some "ComponentMetadata" := by
  have hids : (∀ p ∈ sharedPasses, (p.schema id).ids.Nodup) ∧
      ∀ p ∈ sharedPasses, ∀ q ∈ sharedPasses, p.id ≠ q.id → ∀ x ∈ (p.schema id).ids, x ∉ (q.schema id).ids := by
    decide +kernel
  have hnone : ∀ node ∈ (sharedPasses.foldl (fun g p => p.replace id g) Graph.empty).nodes,
      Record.text? node.2 "internal" = none := by decide +kernel
  refine ⟨hids.1, hids.2, _, Pass.foldlM_apply id _ Graph.empty, ?_,
    Pass.bare "a--0--A--ComponentMetadata" "B" 1, rfl, by decide +kernel⟩
  obtain ⟨found, hfound, -, hmem⟩ := (Pass.readable_foldl id sharedPasses).nodesOfType (.str "ComponentMetadata")
  have hempty : found = [] := by
    refine List.eq_nil_iff_forall_not_mem.mpr fun node hnode => ?_
    obtain ⟨hnode, htype⟩ := (hmem node).mp hnode
    rw [Record.hasType_of_none (hnone node hnode)] at htype
    exact absurd htype (by simp)
  rw [hfound, hempty]

end ComponentDocs

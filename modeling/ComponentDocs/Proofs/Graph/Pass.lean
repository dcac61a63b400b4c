import ComponentDocs.Proofs.Emission.File
import Mathlib.Data.List.Induction

/-!
# Passes over a graph

Passes that replace what their file brought before by the schema of its components.

* `Pass`: a file and its components; `Pass.schema`: the schema that it emits; `Pass.run`: one after another;
* `ofFile`, `IsLast`: the passes of a file, and the last of them;
* `supplied?`, `latest`: a value that a file supplies, and the most recent one over its passes;
* `fileState`: the attributes of the node of a file; **`get?_fileState_of_mem`**: its values are the most
  recent ones.
-/

namespace ComponentDocs

/-- A file with an identifier and its components; props have names, and no field is there twice. -/
structure Pass where
  file : Record
  components : List Record
  hasId : Fields.has file "id" = true
  named : ∀ component ∈ components, PropsNamed component
  distinct : ∀ component ∈ components, FieldsDistinct component

namespace Pass

/-- The identifier of the file. -/
def id (p : Pass) : String := (Record.get p.file "id").display

section

variable (createId : String → String)

/-- The schema that the pass emits. -/
def schema (p : Pass) : Schema :=
  match emit createId p.file p.components with
  | .ok schema => schema
  | .error _ => Schema.empty

/-- The graph after the pass. -/
def apply (g : Graph) (p : Pass) : Except Fault Graph := do
  let schema ← emit createId p.file p.components
  pure (g.replaceFileNodes p.id p.file schema)

/-- The graph after passes over the graph without nodes. -/
def run (passes : List Pass) : Except Fault Graph := passes.foldlM (apply createId) Graph.empty

theorem emit_eq (p : Pass) : emit createId p.file p.components = .ok (p.schema createId) := by
  obtain ⟨e, he, -⟩ := emit_eq_schema createId p.hasId p.named
  rw [schema, he]

theorem rooted (p : Pass) : (p.schema createId).Rooted p.id := by
  obtain ⟨e, he, hemits⟩ := emit_eq_schema createId p.hasId p.named
  have hschema : p.schema createId = e.schema := by rw [schema, he]
  rw [hschema]
  exact hemits.rooted p.distinct

/-- The graph after a pass that succeeds. -/
def replace (g : Graph) (p : Pass) : Graph := g.replaceFileNodes p.id p.file (p.schema createId)

theorem apply_eq (g : Graph) (p : Pass) : apply createId g p = .ok (p.replace createId g) := by
  rw [apply, emit_eq]
  rfl

/-- **Passes succeed.** -/
theorem foldlM_apply (passes : List Pass) (g : Graph) : passes.foldlM (apply createId) g =
    .ok (passes.foldl (fun g p => p.replace createId g) g) := by
  induction passes generalizing g with
  | nil => rfl
  | cons p passes ih =>
    rw [List.foldlM_cons, apply_eq, List.foldl_cons, ← ih]
    rfl

end

/-! ## Passes of a file -/

/-- The passes of a file. -/
def ofFile (passes : List Pass) (id : String) : List Pass := passes.filter fun p => p.id = id

/-- The pass is the last one of its file. -/
def IsLast (passes : List Pass) (p : Pass) : Prop := (ofFile passes p.id).getLast? = some p

variable {passes : List Pass} {p q : Pass}

theorem ofFile_append (passes more : List Pass) (id : String) :
    ofFile (passes ++ more) id = ofFile passes id ++ ofFile more id := List.filter_append ..

theorem ofFile_singleton_self (p : Pass) : ofFile [p] p.id = [p] := by simp [ofFile]

theorem ofFile_singleton_of_ne {id : String} (h : p.id ≠ id) : ofFile [p] id = [] := by simp [ofFile, h]

theorem IsLast.mem (h : IsLast passes p) : p ∈ passes := (List.mem_filter.mp (List.mem_of_getLast? h)).1

theorem isLast_concat_iff : IsLast (passes ++ [q]) p ↔ p = q ∨ p.id ≠ q.id ∧ IsLast passes p := by
  rw [IsLast, ofFile_append]
  by_cases h : p.id = q.id
  · rw [h, ofFile_singleton_self, List.getLast?_concat, Option.some_inj]
    exact ⟨fun heq => Or.inl heq.symm, fun hor => hor.elim Eq.symm fun hne => absurd rfl hne.1⟩
  · rw [ofFile_singleton_of_ne (Ne.symm h), List.append_nil]
    exact ⟨fun hlast => Or.inr ⟨h, hlast⟩, fun hor => hor.elim (fun heq => absurd (heq ▸ rfl) h) And.right⟩

theorem exists_isLast (hp : p ∈ passes) : ∃ q, IsLast passes q ∧ q.id = p.id := by
  have hmem : p ∈ ofFile passes p.id := List.mem_filter.mpr ⟨hp, decide_eq_true rfl⟩
  cases hlast : (ofFile passes p.id).getLast? with
  | none => exact absurd (List.getLast?_eq_none_iff.mp hlast ▸ hmem) List.not_mem_nil
  | some q =>
    have hq : q.id = p.id := of_decide_eq_true (List.mem_filter.mp (List.mem_of_getLast? hlast)).2
    exact ⟨q, by rwa [IsLast, hq], hq⟩

/-! ## Attributes of a file -/

/-- The value that a file supplies under a key, unless it is null. -/
def supplied? (file : Record) (key : String) : Option Json :=
  match Record.get file key with
  | .null => none
  | value => some value

/-- The most recent value that the passes of a file supply under a key. -/
def latest (passes : List Pass) (id key : String) : Option Json :=
  ((ofFile passes id).filterMap fun p => supplied? p.file key).getLast?

/-- The attributes of the node of a file after its passes. -/
def fileState (passes : List Pass) (id : String) : Record :=
  (ofFile passes id).foldl (fun attrs p => Fields.merge attrs (Graph.fileAttributes p.file)) []

theorem fileAttributes_eq (file : Record) : Graph.fileAttributes file =
    Graph.fileKeys.filterMap (fun key => (supplied? file key).map (Prod.mk key)) ++
      [("kind", .str "File")] := by
  rw [Graph.fileAttributes]
  congr 2
  funext key
  rw [supplied?]
  cases Record.get file key <;> rfl

theorem nodup_names_fileAttributes (file : Record) : (Fields.names (Graph.fileAttributes file)).Nodup := by
  have hsub : (Fields.names (Graph.fileAttributes file)).Sublist (Graph.fileKeys ++ ["kind"]) := by
    rw [fileAttributes_eq, Fields.names, List.map_append]
    exact (Fields.names_filterMap_sublist ..).append (List.Sublist.refl _)
  exact hsub.nodup (by decide)

theorem get?_fileAttributes (file : Record) (key : String) : Fields.get? (Graph.fileAttributes file) key =
    if key ∈ Graph.fileKeys then supplied? file key else if key = "kind" then some (.str "File") else none := by
  rw [fileAttributes_eq, Fields.get?_append, Fields.get?_filterMap, Fields.get?_cons]
  split_ifs with hkey hkind hkind
  · subst hkind
    exact absurd hkey (by decide)
  · exact Option.or_none
  · rfl
  · exact absurd hkind.symm ‹_›
  · exact absurd ‹_› (Ne.symm hkind)
  · rfl

theorem fileState_concat_self (passes : List Pass) (p : Pass) : fileState (passes ++ [p]) p.id =
    Fields.merge (fileState passes p.id) (Graph.fileAttributes p.file) := by
  rw [fileState, ofFile_append, ofFile_singleton_self, List.foldl_append]
  rfl

theorem fileState_concat_of_ne {id : String} (h : p.id ≠ id) :
    fileState (passes ++ [p]) id = fileState passes id := by
  rw [fileState, ofFile_append, ofFile_singleton_of_ne h, List.append_nil]
  rfl

theorem get?_fileState (passes : List Pass) (id key : String) : Fields.get? (fileState passes id) key =
    ((ofFile passes id).filterMap fun p => Fields.get? (Graph.fileAttributes p.file) key).getLast? := by
  rw [fileState]
  induction ofFile passes id using List.reverseRecOn with
  | nil => rfl
  | append_singleton ps p ih =>
    rw [List.foldl_append, List.foldl_cons, List.foldl_nil, Fields.get?_merge,
      Fields.get?_reverse (nodup_names_fileAttributes _), ih, List.filterMap_append, List.getLast?_append,
      List.filterMap_cons, List.filterMap_nil]
    cases Fields.get? (Graph.fileAttributes p.file) key <;> rfl

/-- **The node of a file has the most recent values that its passes supply.** -/
theorem get?_fileState_of_mem (passes : List Pass) (id : String) {key : String} (hkey : key ∈ Graph.fileKeys) :
    Fields.get? (fileState passes id) key = latest passes id key := by
  rw [get?_fileState, latest]
  simp only [get?_fileAttributes, if_pos hkey]

theorem get?_fileState_kind (hp : p ∈ passes) :
    Fields.get? (fileState passes p.id) "kind" = some (.str "File") := by
  obtain ⟨q, hq, hid⟩ := exists_isLast hp
  obtain ⟨ps, hps⟩ := List.getLast?_eq_some_iff.mp hq
  rw [hid] at hps
  rw [get?_fileState, hps, List.filterMap_append, List.filterMap_cons, get?_fileAttributes]
  exact List.getLast?_concat

theorem get?_fileState_of_notMem (passes : List Pass) (id : String) {key : String}
    (hkey : key ∉ "kind" :: Graph.fileKeys) : Fields.get? (fileState passes id) key = none := by
  rw [List.mem_cons, not_or] at hkey
  rw [get?_fileState]
  simp only [get?_fileAttributes, if_neg hkey.1, if_neg hkey.2, List.filterMap_none, List.getLast?_nil]

/-- The last pass of a file supplies what the node of the file has already. -/
theorem fileState_concat_of_isLast (h : IsLast passes p) (id : String) :
    fileState (passes ++ [p]) id = fileState passes id := by
  by_cases hid : p.id = id
  · subst hid
    rw [fileState_concat_self]
    obtain ⟨ps, hps⟩ := List.getLast?_eq_some_iff.mp h
    refine Fields.merge_of_get? fun entry hentry => ?_
    have hget : Fields.get? (Graph.fileAttributes p.file) entry.1 = some entry.2 :=
      (Fields.mem_iff_get? (nodup_names_fileAttributes p.file)).mp hentry
    rw [get?_fileState, hps, List.filterMap_append, List.filterMap_cons, hget]
    exact List.getLast?_concat
  · exact fileState_concat_of_ne hid

end Pass

end ComponentDocs

import ComponentDocs.Proofs.Emission.WellFormed
import Mathlib.Data.List.Dedup

/-!
# Identifiers of a file

Names are put into seeds as they stand, yet no two nodes of a file share a seed.

* `nodeSeeds`: the seeds of the nodes of a file, one for each text;
* `EmitsFile.ids_perm_nodeSeeds`: the nodes have the identifiers of these seeds;
* **`emit_ids_nodup`**: the seeds of a file are different, and so are its identifiers.
-/

namespace ComponentDocs

/-- The seeds of the nodes of a file: components, props, and descriptions once for each text. -/
def nodeSeeds (file : String) (components : List Record) : List String :=
  entitySeeds file components ++ descriptionSeeds file (fileTexts components).dedup

variable {createId : String → String} {file : String} {components : List Record}

theorem EmitsFile.ids_perm_nodeSeeds {e : Emission} (h : EmitsFile createId file components e) :
    (e.nodes.map EmittedNode.id).Perm ((nodeSeeds file components).map createId) := by
  have htexts : (Use.texts (Use.first (fileUses createId file components))).Perm (fileTexts components).dedup := by
    rw [List.perm_ext_iff_of_nodup (Use.nodup_texts_first _) (List.nodup_dedup _)]
    intro text
    rw [Use.mem_texts_first, texts_fileUses, List.mem_dedup]
  exact h.ids_perm.trans (List.Perm.map _ ((htexts.map _).append_left _))

/-- **The seeds of the nodes of a file are different**, and so are their identifiers, if different seeds have
different identifiers, the props of each component different names and the description texts different
digests. -/
theorem emit_ids_nodup (hinj : Function.Injective createId) {file : Record} (hfile : Fields.has file "id" = true)
    (hprops : ∀ component ∈ components, PropsDistinct component)
    (hdigest : ∀ a ∈ fileTexts components, ∀ b ∈ fileTexts components,
      contentDigest (.str a) = contentDigest (.str b) → a = b) :
    (nodeSeeds (Record.get file "id").display components).Nodup ∧
      ∃ schema, emit createId file components = .ok schema ∧ schema.ids.Nodup ∧
        schema.ids.Perm ((nodeSeeds (Record.get file "id").display components).map createId) := by
  obtain ⟨e, he, h⟩ := emit_eq_schema createId hfile fun component hcomponent => (hprops component hcomponent).1
  have hseeds : (nodeSeeds (Record.get file "id").display components).Nodup := by
    apply nodup_fileSeeds hprops (List.nodup_dedup _)
    intro a ha b hb
    rw [List.mem_dedup] at ha hb
    exact hdigest a ha b hb
  have hperm : e.schema.ids.Perm ((nodeSeeds (Record.get file "id").display components).map createId) := by
    rw [e.ids_schema]
    exact h.ids_perm_nodeSeeds
  have hids : e.schema.ids.Nodup := hperm.nodup_iff.mpr (hseeds.map hinj)
  exact ⟨hseeds, e.schema, he, hids, hperm⟩

/-- Two components whose names and props look like parts of seeds. -/
def dashedComponents : List Record :=
  [[("displayName", .str "A--1--A"), ("description", .str "Words"),
    ("props", .arr [.obj [("name", .str "x"), ("description", .str "Words")],
      .obj [("name", .str "x--ComponentProp-x")]])],
   [("displayName", .str "A--ComponentMetadata--ComponentProp-x"), ("description", .str "ComponentDescription--")]]

theorem emit_ids_dashedComponents : Function.Injective (id : String → String) ∧
    (nodeSeeds "a--0" dashedComponents).Nodup ∧
      ∃ schema, emit id [("id", .str "a--0")] dashedComponents = .ok schema ∧ schema.ids.Nodup := by
  have hprops : ∀ component ∈ dashedComponents, PropsDistinct component := by
    unfold PropsDistinct PropsNamed
    decide +kernel
  have hdigest : ∀ a ∈ fileTexts dashedComponents, ∀ b ∈ fileTexts dashedComponents,
      contentDigest (.str a) = contentDigest (.str b) → a = b := by decide +kernel
  have hfile : Fields.has [("id", Json.str "a--0")] "id" = true := rfl
  obtain ⟨hseeds, schema, hschema, hids, -⟩ := emit_ids_nodup Function.injective_id hfile hprops hdigest
  exact ⟨Function.injective_id, hseeds, schema, hschema, hids⟩

end ComponentDocs

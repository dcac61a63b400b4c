import ComponentDocs.Proofs.Emission.WellFormed
import ComponentDocs.Proofs.Json.Canonical
import ComponentDocs.Proofs.Json.RoundTrip

/-!
# Digests of records

Nodes carry the digest of their records, so that a record that changed is noticed, and one whose keys were reordered is
not.

* **`hashedText_eq_iff`**: values have the same hashed text if and only if they are equal up to the order of keys;
* `contentDigest_eq_iff`: so it is with digests, if no two texts share one;
* `EmitsFile.digests_perm`: the nodes of components and props carry the digests of their records;
* **`digests_of_records`**: all of it together.
-/

namespace ComponentDocs

open Json

/-! ## Hashed texts -/

section

variable {a b : Json}

theorem hashedText_of_not_str (h : a.str? = none) : hashedText a = a.canonical.compact := by
  cases a with
  | str text => exact absurd h (by simp [Json.str?])
  | _ => rfl

/-- **Values have the same hashed text if and only if they are equal up to the order of keys.** -/
theorem hashedText_eq_iff (ha : a.Sound) (hb : b.Sound) (hna : a.str? = none) (hnb : b.str? = none) :
    hashedText a = hashedText b ↔ Reordered a b := by
  rw [hashedText_of_not_str hna, hashedText_of_not_str hnb, ← canonical_eq_iff ha]
  exact ⟨compact_injective (sound_canonical ha) (sound_canonical hb), congrArg compact⟩

/-- A string is hashed as it stands, so it may share its text with a value that is none. -/
example : hashedText (.str "null") = hashedText .null := rfl

/-! ## Digests -/

/-- The two values show no collision of the hash function. -/
def NoCollision (a b : Json) : Prop :=
  Digest.md5 (Text.encode (hashedText a)) = Digest.md5 (Text.encode (hashedText b)) →
    Text.encode (hashedText a) = Text.encode (hashedText b)

theorem contentDigest_eq_iff (h : NoCollision a b) : contentDigest a = contentDigest b ↔ hashedText a = hashedText b := by
  refine ⟨fun hdigest => ?_, fun htext => by rw [contentDigest, htext, contentDigest]⟩
  exact Text.encode_injective (h (Digest.hex_injective (String.ofList_injective hdigest)))

end

/-! ## Nodes -/

/-- The digest that a node carries. -/
def SchemaNode.digest? (node : SchemaNode) : Option Json :=
  Fields.get? (Record.object node.fields "internal") "content_digest"

theorem EmittedNode.digest?_toSchemaNode (node : EmittedNode) : node.toSchemaNode.digest? = some (.str node.digest) := by
  obtain ⟨internal, hinternal, -, hdigest⟩ := node.get?_internal
  rw [SchemaNode.digest?, toSchemaNode, Record.object, hinternal]
  exact hdigest

variable {createId : String → String} {file : String} {components : List Record}

/-- **The nodes of components and props carry the digests of their records.** -/
theorem EmitsFile.digests_perm {e : Emission} (h : EmitsFile createId file components e) :
    ((e.schema.nodes.filter fun node => node.IsEntity).map fun node => (node.id, node.digest?)).Perm
      ((fileRecords createId file components).map fun entity =>
        (entity.1, some (.str (contentDigest (.obj entity.2))))) := by
  rw [h.filter_isEntity, List.map_map]
  have hnode : ∀ node : EmittedNode, (node.toSchemaNode.id, node.toSchemaNode.digest?) =
      (node.id, some (.str node.digest)) := fun node => by rw [node.digest?_toSchemaNode]; rfl
  have hmap : (fun node : SchemaNode => (node.id, node.digest?)) ∘ EmittedNode.toSchemaNode =
      fun node => (node.id, some (.str node.digest)) := funext hnode
  rw [hmap, fileEntities, fileRecords, List.map_flatMap, List.map_flatMap]
  refine List.Perm.flatMap_left _ fun c _ => ?_
  rw [recordsAt, componentNodes, List.map_append, List.map_map, List.map_cons, List.map_map, List.map_singleton]
  exact (List.perm_append_singleton ..).symm

/-- **Digests follow the records.** Values that are no strings have the same hashed text if and only if they are equal up
to the order of keys. So the digests of two records are the same if and only if the records are equal up to the order of
keys, unless their texts collide, and these are the digests that the nodes of components and props carry. -/
theorem digests_of_records :
    (∀ a b : Json, a.Sound → b.Sound → a.str? = none → b.str? = none →
      (hashedText a = hashedText b ↔ Reordered a b)) ∧
    (∀ record other : Record, Record.Sound record → Record.Sound other → NoCollision (.obj record) (.obj other) →
      (contentDigest (.obj record) = contentDigest (.obj other) ↔ Reordered (.obj record) (.obj other))) ∧
    ∀ (createId : String → String) (file : Record) (components : List Record), Fields.has file "id" = true →
      (∀ component ∈ components, PropsNamed component) → ∃ schema, emit createId file components = .ok schema ∧
        ((schema.nodes.filter fun node => node.IsEntity).map fun node => (node.id, node.digest?)).Perm
          ((fileRecords createId (Record.get file "id").display components).map fun entity =>
            (entity.1, some (.str (contentDigest (.obj entity.2))))) := by
  refine ⟨fun a b => hashedText_eq_iff, fun record other hrecord hother hcollision => ?_,
    fun createId file components hfile hnames => ?_⟩
  · rw [contentDigest_eq_iff hcollision]
    exact hashedText_eq_iff (Record.sound_obj_iff.mpr hrecord) (Record.sound_obj_iff.mpr hother) rfl rfl
  · obtain ⟨e, he, h⟩ := emit_eq_schema createId hfile hnames
    exact ⟨e.schema, he, h.digests_perm⟩

/-- Fields that trade places leave the digest as it is; a number is no string. -/
theorem digests_of_swapped :
    contentDigest (.obj [("name", .str "size"), ("required", .bool true)]) =
        contentDigest (.obj [("required", .bool true), ("name", .str "size")]) ∧
      ¬ Reordered (.obj [("name", .str "1")]) (.obj [("name", .int 1)]) := by
  have hone : ∀ (name : String) (value : Json), value.Sound → Record.Sound [(name, value)] := fun _ _ =>
    Record.sound_nil.cons List.not_mem_nil
  have hbool : Json.Sound (.bool true) := sound_bool true
  have hfirst : Record.Sound [("name", .str "size"), ("required", .bool true)] :=
    (hone _ _ hbool).cons (by decide) (sound_str _)
  have hsecond : Record.Sound [("required", .bool true), ("name", .str "size")] :=
    (hone _ _ (sound_str _)).cons (by decide) hbool
  have hordered : Reordered (.obj [("name", .str "size"), ("required", .bool true)])
      (.obj [("required", .bool true), ("name", .str "size")]) := .order (.swap ..)
  constructor
  · refine (digests_of_records.2.1 _ _ hfirst hsecond fun _ => congrArg Text.encode ?_).mpr hordered
    exact (digests_of_records.1 _ _ (Record.sound_obj_iff.mpr hfirst) (Record.sound_obj_iff.mpr hsecond) rfl rfl).mpr
      hordered
  · rw [← digests_of_records.1 _ _ (Record.sound_obj_iff.mpr (hone _ _ (sound_str _)))
      (Record.sound_obj_iff.mpr (hone _ _ (by simp [Sound]))) rfl rfl]
    decide +kernel

end ComponentDocs

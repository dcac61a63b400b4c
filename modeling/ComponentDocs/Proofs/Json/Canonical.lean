import ComponentDocs.Json.Printer
import ComponentDocs.Proofs.Json.Sound

/-!
# Canonical values

Sorting the keys of every object picks one value among those that are equal up to the order of keys.

* `Json.Reordered`: values that are equal up to the order of keys, at every depth;
* `Json.reordered_canonical`: sorting the keys reorders a value;
* `Json.Reordered.canonical_eq`: reordered values have the same canonical value;
* **`Json.canonical_eq_iff`**: values have the same canonical value if they are equal up to the order of keys, and only
  then.
-/

namespace ComponentDocs.Json

/-! ## The order of keys -/

/-- The values are equal up to the order of keys: the fields of objects, at any depth, may stand in another order. -/
inductive Reordered : Json → Json → Prop
  | refl (value : Json) : Reordered value value
  | trans {a b c : Json} : Reordered a b → Reordered b c → Reordered a c
  /-- The fields of an object in another order. -/
  | order {fields others : Record} : fields.Perm others → Reordered (obj fields) (obj others)
  /-- An item of a list. -/
  | item {a b : Json} (front back : List Json) :
    Reordered a b → Reordered (arr (front ++ a :: back)) (arr (front ++ b :: back))
  /-- The value of a field. -/
  | value {a b : Json} (front : Record) (name : String) (back : Record) :
    Reordered a b → Reordered (obj (front ++ (name, a) :: back)) (obj (front ++ (name, b) :: back))

theorem Reordered.symm {a b : Json} (h : Reordered a b) : Reordered b a := by
  induction h with
  | refl value => exact .refl value
  | trans _ _ hab hbc => exact hbc.trans hab
  | order h => exact .order h.symm
  | item front back _ ih => exact .item front back ih
  | value front name back _ ih => exact .value front name back ih

/-! ## Sorting keys -/

theorem canonicalItems_eq_map (items : List Json) : canonicalItems items = items.map canonical := by
  induction items with
  | nil => rfl
  | cons item items ih => rw [canonicalItems, ih, List.map_cons]

theorem canonicalFields_eq_map (fields : Record) :
    canonicalFields fields = fields.map fun field => (field.1, canonical field.2) := by
  induction fields with
  | nil => rfl
  | cons field fields ih => rw [canonicalFields, ih, List.map_cons]

theorem names_canonicalFields (fields : Record) : Fields.names (canonicalFields fields) = Fields.names fields := by
  rw [canonicalFields_eq_map, Fields.names, List.map_map]
  rfl

theorem sortFields_perm (fields : Record) : (sortFields fields).Perm fields := List.mergeSort_perm ..

/-- Fields with distinct names have one sorted order. -/
theorem sortFields_eq_of_perm {fields others : Record} (hnodup : (Fields.names fields).Nodup) (h : fields.Perm others) :
    sortFields fields = sortFields others := by
  have hsorted : ∀ l : Record, (sortFields l).Pairwise fun a b => decide (a.1 ≤ b.1) = true := by
    refine List.pairwise_mergeSort (fun a b c hab hbc => ?_) fun a b => ?_
    · rw [decide_eq_true_iff] at hab hbc ⊢
      exact String.le_trans hab hbc
    · rw [Bool.or_eq_true, decide_eq_true_iff, decide_eq_true_iff]
      exact String.le_total a.1 b.1
  refine List.Perm.eq_of_pairwise (fun a b ha hb hab hba => ?_) (hsorted fields) (hsorted others)
    (((sortFields_perm fields).trans h).trans (sortFields_perm others).symm)
  rw [decide_eq_true_iff] at hab hba
  have hb' : b ∈ fields := h.mem_iff.mpr ((sortFields_perm others).mem_iff.mp hb)
  exact List.inj_on_of_nodup_map hnodup ((sortFields_perm fields).mem_iff.mp ha) hb' (String.le_antisymm hab hba)

mutual

/-- **Sorting the keys reorders a value.** -/
theorem reordered_canonical (v : Json) : Reordered v (canonical v) := by
  cases v with
  | arr items => exact reordered_items [] items
  | obj fields => exact (reordered_fields [] fields).trans (.order (sortFields_perm _).symm)
  | _ => exact .refl _

theorem reordered_items (front items : List Json) :
    Reordered (arr (front ++ items)) (arr (front ++ canonicalItems items)) := by
  cases items with
  | nil => exact .refl _
  | cons item items =>
    have hrest := reordered_items (front ++ [canonical item]) items
    rw [List.append_assoc, List.append_assoc] at hrest
    exact (Reordered.item front items (reordered_canonical item)).trans hrest

theorem reordered_fields (front fields : Record) :
    Reordered (obj (front ++ fields)) (obj (front ++ canonicalFields fields)) := by
  rcases fields with _ | ⟨⟨name, value⟩, fields⟩
  · exact .refl _
  · have hrest := reordered_fields (front ++ [(name, canonical value)]) fields
    rw [List.append_assoc, List.append_assoc] at hrest
    exact (Reordered.value front name fields (reordered_canonical value)).trans hrest

end

/-! ## Sound values -/

theorem Reordered.sound {a b : Json} (h : Reordered a b) (ha : a.Sound) : b.Sound := by
  induction h with
  | refl value => exact ha
  | trans _ _ hab hbc => exact hbc (hab ha)
  | order h =>
    rw [Record.sound_obj_iff] at ha ⊢
    exact ⟨(h.map _).nodup_iff.mp ha.nodup, fun field hfield => ha.values field (h.mem_iff.mpr hfield)⟩
  | item front back _ ih =>
    rw [sound_arr_iff] at ha ⊢
    intro item hitem
    rw [List.mem_append, List.mem_cons] at hitem
    rcases hitem with hitem | rfl | hitem
    · exact ha item (List.mem_append_left _ hitem)
    · exact ih (ha _ (by simp))
    · exact ha item (by simp [hitem])
  | value front name back _ ih =>
    rw [Record.sound_obj_iff] at ha ⊢
    refine ⟨?_, fun field hfield => ?_⟩
    · have hnodup := ha.nodup
      simp only [Fields.names, List.map_append, List.map_cons] at hnodup ⊢
      exact hnodup
    · rw [List.mem_append, List.mem_cons] at hfield
      rcases hfield with hfield | rfl | hfield
      · exact ha.values field (List.mem_append_left _ hfield)
      · exact ih (ha.values (name, _) (by simp))
      · exact ha.values field (by simp [hfield])

theorem sound_canonical {v : Json} (h : v.Sound) : v.canonical.Sound := (reordered_canonical v).sound h

/-- **Reordered values have the same canonical value.** -/
theorem Reordered.canonical_eq {a b : Json} (h : Reordered a b) (ha : a.Sound) : canonical a = canonical b := by
  induction h with
  | refl value => rfl
  | trans hab _ ihab ihbc => exact (ihab ha).trans (ihbc (hab.sound ha))
  | order h =>
    rw [Record.sound_obj_iff] at ha
    rw [canonical, canonical, sortFields_eq_of_perm]
    · rw [names_canonicalFields]
      exact ha.nodup
    · rw [canonicalFields_eq_map, canonicalFields_eq_map]
      exact h.map _
  | item front back _ ih =>
    rw [sound_arr_iff] at ha
    simp only [canonical, canonicalItems_eq_map, List.map_append, List.map_cons, ih (ha _ (by simp))]
  | value front name back _ ih =>
    rw [Record.sound_obj_iff] at ha
    simp only [canonical, canonicalFields_eq_map, List.map_append, List.map_cons, ih (ha.values (name, _) (by simp))]

/-- **Sound values have the same canonical value if and only if they are equal up to the order of keys.** -/
theorem canonical_eq_iff {a b : Json} (ha : a.Sound) : canonical a = canonical b ↔ Reordered a b := by
  refine ⟨fun h => ?_, fun h => h.canonical_eq ha⟩
  have hb := (reordered_canonical b).symm
  rw [← h] at hb
  exact (reordered_canonical a).trans hb

end ComponentDocs.Json

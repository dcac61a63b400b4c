import ComponentDocs.Fields
import ComponentDocs.Proofs.Lists

/-!
# Named values

What is found under a name after writing, merging and leaving out.

* `get?_set`, `get?_merge`, `get?_filterMap`: the value under a name;
* `names_set`, `nodup_names_merge`: the names;
* `merge_of_nodup`: fields with new names are put at the end as they are;
* `merge_of_get?`: writing what is there changes nothing;
* `set_set`, `set_comm`, `merge_merge_self`: writing again, in another order, and all over;
* `ofList_eq`: of a list with repeated names, each name at its first place with its last value;
* `get?_erase`: the value under a name when one is left out.
-/

namespace ComponentDocs.Fields

variable {α : Type} {fields more : Fields α} {key name : String} {value : α}

theorem names_cons (entry : String × α) (fields : Fields α) :
    names (entry :: fields) = entry.1 :: names fields := rfl

/-! ## Finding -/

theorem get?_cons (entry : String × α) (fields : Fields α) (key : String) :
    get? (entry :: fields) key = if entry.1 = key then some entry.2 else get? fields key := rfl

theorem get?_eq_none_iff : get? fields key = none ↔ key ∉ names fields := by
  induction fields with
  | nil => exact iff_of_true rfl List.not_mem_nil
  | cons entry fields ih =>
    rw [get?_cons, names_cons, List.mem_cons, not_or]
    split_ifs with h
    · exact iff_of_false (by simp) fun hne => hne.1 h.symm
    · rw [ih]
      exact ⟨fun hmem => ⟨fun heq => h heq.symm, hmem⟩, fun hmem => hmem.2⟩

theorem has_iff : has fields key = true ↔ key ∈ names fields := by
  rw [has, Option.isSome_iff_ne_none, Ne, get?_eq_none_iff, not_not]

theorem mem_of_get? (h : get? fields key = some value) : (key, value) ∈ fields := by
  induction fields with
  | nil => exact absurd h (by simp [get?])
  | cons entry fields ih =>
    rw [get?_cons] at h
    split_ifs at h with hkey
    · rw [← hkey, ← Option.some.inj h]
      exact List.mem_cons_self ..
    · exact List.mem_cons_of_mem _ (ih h)

theorem mem_names_of_get? (h : get? fields key = some value) : key ∈ names fields :=
  has_iff.mp (by rw [has, h]; rfl)

theorem mem_iff_get? (hnodup : (names fields).Nodup) :
    (key, value) ∈ fields ↔ get? fields key = some value := by
  refine ⟨fun h => ?_, mem_of_get?⟩
  induction fields with
  | nil => exact absurd h List.not_mem_nil
  | cons entry fields ih =>
    rw [names_cons, List.nodup_cons] at hnodup
    rw [get?_cons]
    rcases List.mem_cons.mp h with rfl | h
    · exact if_pos rfl
    · have hname : key ∈ names fields := List.mem_map_of_mem (f := Prod.fst) h
      have hne : entry.1 ≠ key := fun heq => hnodup.1 (heq ▸ hname)
      rw [if_neg hne, ih hnodup.2 h]

theorem get?_append (fields more : Fields α) (key : String) :
    get? (fields ++ more) key = (get? fields key).or (get? more key) := by
  induction fields with
  | nil => rfl
  | cons entry fields ih =>
    rw [List.cons_append, get?_cons, get?_cons, ih]
    split_ifs <;> rfl

theorem get?_flatMap {β : Type} (xs : List β) (f : β → Fields α) (key : String) :
    get? (xs.flatMap f) key = xs.findSome? fun x => get? (f x) key := by
  induction xs with
  | nil => rfl
  | cons x xs ih =>
    rw [List.flatMap_cons, get?_append, List.findSome?_cons, ih]
    cases get? (f x) key <;> rfl

theorem get?_map {β : Type} (fields : Fields α) (f : α → β) (key : String) :
    get? (fields.map fun entry => (entry.1, f entry.2)) key = (get? fields key).map f := by
  induction fields with
  | nil => rfl
  | cons entry fields ih =>
    rw [List.map_cons, get?_cons, get?_cons, ih]
    split_ifs <;> rfl

theorem get?_filterMap (keys : List String) (f : String → Option α) (key : String) :
    get? (keys.filterMap fun name => (f name).map (Prod.mk name)) key = if key ∈ keys then f key else none := by
  induction keys with
  | nil => rfl
  | cons name keys ih =>
    rw [List.filterMap_cons]
    by_cases h : name = key
    · subst h
      rw [if_pos (List.mem_cons_self ..)]
      cases hf : f name with
      | none => rw [Option.map_none, ih, hf, ite_self]
      | some value => rw [Option.map_some, get?_cons, if_pos rfl]
    · have hmem : key ∈ name :: keys ↔ key ∈ keys := by
        rw [List.mem_cons, or_iff_right (Ne.symm h)]
      simp only [hmem]
      cases f name with
      | none => rw [Option.map_none, ih]
      | some value => rw [Option.map_some, get?_cons, if_neg h, ih]

theorem names_filterMap_sublist (keys : List String) (f : String → Option α) :
    (names (keys.filterMap fun name => (f name).map (Prod.mk name))).Sublist keys := by
  induction keys with
  | nil => exact List.Sublist.refl _
  | cons name keys ih =>
    rw [List.filterMap_cons]
    cases f name with
    | none => exact ih.cons _
    | some value => exact ih.cons_cons _

/-! ## Writing -/

theorem get?_set (fields : Fields α) (key : String) (value : α) (name : String) :
    get? (set fields key value) name = if name = key then some value else get? fields name := by
  induction fields with
  | nil =>
    rw [set, get?_cons]
    simp only [eq_comm]
  | cons entry fields ih =>
    rw [set]
    by_cases hkey : entry.1 = key
    · rw [if_pos hkey, get?_cons, get?_cons]
      by_cases hname : name = key
      · rw [if_pos hname, if_pos hname.symm]
      · rw [if_neg hname, if_neg (Ne.symm hname), if_neg fun h => hname (h.symm.trans hkey)]
    · rw [if_neg hkey, get?_cons, get?_cons, ih]
      by_cases hname : entry.1 = name
      · rw [if_pos hname, if_pos hname, if_neg fun h => hkey (hname.trans h)]
      · rw [if_neg hname, if_neg hname]

theorem set_of_notMem (h : key ∉ names fields) (value : α) :
    set fields key value = fields ++ [(key, value)] := by
  induction fields with
  | nil => rfl
  | cons entry fields ih =>
    rw [names_cons, List.mem_cons, not_or] at h
    rw [set, if_neg (Ne.symm h.1), ih h.2]
    rfl

theorem get?_setNew (fields : Fields α) (key : String) (value : α) (name : String) :
    get? (setNew fields key value) name =
      if name = key then (get? fields key).or (some value) else get? fields name := by
  rw [setNew]
  by_cases hhas : has fields key = true
  · obtain ⟨old, hold⟩ := Option.isSome_iff_exists.mp hhas
    rw [if_pos hhas, hold]
    split_ifs with hname
    · rw [hname, hold]
      rfl
    · rfl
  · have hnew := fun hkey => hhas (has_iff.mpr hkey)
    rw [if_neg hhas, ← set_of_notMem hnew, get?_set, get?_eq_none_iff.mpr hnew]
    rfl

theorem names_set (fields : Fields α) (key : String) (value : α) :
    names (set fields key value) = if key ∈ names fields then names fields else names fields ++ [key] := by
  split_ifs with h
  · induction fields with
    | nil => exact absurd h List.not_mem_nil
    | cons entry fields ih =>
      rw [set]
      split_ifs with hkey
      · rw [names_cons, names_cons, hkey]
      · rw [names_cons, List.mem_cons] at h
        rw [names_cons, names_cons, ih (h.resolve_left (Ne.symm hkey))]
  · rw [set_of_notMem h]
    exact List.map_append ..

theorem nodup_names_set (h : (names fields).Nodup) (key : String) (value : α) :
    (names (set fields key value)).Nodup := by
  rw [names_set]
  split_ifs with hkey
  · exact h
  · exact List.nodup_append.mpr ⟨h, List.nodup_singleton _, fun a ha b hb => by
      rw [List.mem_singleton.mp hb]
      exact fun heq => hkey (heq ▸ ha)⟩

theorem mem_set {field : String × α} (h : field ∈ set fields key value) : field = (key, value) ∨ field ∈ fields := by
  induction fields with
  | nil => exact Or.inl (by simpa [set] using h)
  | cons entry fields ih =>
    unfold set at h
    split_ifs at h with hkey
    · rcases List.mem_cons.mp h with h | h
      · exact Or.inl h
      · exact Or.inr (List.mem_cons_of_mem _ h)
    · rcases List.mem_cons.mp h with h | h
      · exact Or.inr (List.mem_cons.mpr (Or.inl h))
      · exact (ih h).imp_right (List.mem_cons_of_mem _)

theorem set_of_get? (h : get? fields key = some value) : set fields key value = fields := by
  induction fields with
  | nil => exact absurd h (by simp [get?])
  | cons entry fields ih =>
    rw [get?_cons] at h
    rw [set]
    split_ifs at h ⊢ with hkey
    · rw [← hkey, ← Option.some.inj h]
    · rw [ih h]

theorem set_set (fields : Fields α) (key : String) (old value : α) :
    set (set fields key old) key value = set fields key value := by
  induction fields with
  | nil => simp [set]
  | cons entry fields ih =>
    by_cases hkey : entry.1 = key
    · simp [set, hkey]
    · simp [set, hkey, ih]

theorem set_comm (hkey : key ∈ names fields) (hne : key ≠ name) (value other : α) :
    set (set fields key value) name other = set (set fields name other) key value := by
  induction fields with
  | nil => exact absurd hkey List.not_mem_nil
  | cons entry fields ih =>
    by_cases hentry : entry.1 = key
    · simp [set, hentry, hne]
    · have hrest : key ∈ names fields := by
        rw [names_cons, List.mem_cons] at hkey
        exact hkey.resolve_left (Ne.symm hentry)
      by_cases hname : entry.1 = name
      · simp [set, hname, Ne.symm hne]
      · simp [set, hentry, hname, ih hrest]

/-! ## Merging -/

theorem merge_cons (fields : Fields α) (entry : String × α) (more : Fields α) :
    merge fields (entry :: more) = merge (set fields entry.1 entry.2) more := rfl

/-- The last value written under a name is found. -/
theorem get?_merge (fields more : Fields α) (key : String) :
    get? (merge fields more) key = (get? more.reverse key).or (get? fields key) := by
  induction more generalizing fields with
  | nil => rfl
  | cons entry more ih =>
    rw [merge_cons, ih, get?_set, List.reverse_cons, get?_append, Option.or_assoc, get?_cons]
    congr 1
    by_cases h : key = entry.1
    · rw [if_pos h, if_pos h.symm]
      rfl
    · rw [if_neg h, if_neg (Ne.symm h)]
      rfl

theorem nodup_names_merge (h : (names fields).Nodup) (more : Fields α) : (names (merge fields more)).Nodup := by
  induction more generalizing fields with
  | nil => exact h
  | cons entry more ih => exact ih (nodup_names_set h entry.1 entry.2)

/-- Fields with new names are put at the end as they are. -/
theorem merge_of_nodup (h : (names (fields ++ more)).Nodup) : merge fields more = fields ++ more := by
  induction more generalizing fields with
  | nil => exact (List.append_nil fields).symm
  | cons entry more ih =>
    have hentry : entry.1 ∉ names fields := by
      rw [names, List.map_append, List.nodup_append] at h
      exact fun hmem => h.2.2 _ hmem _ (List.mem_cons_self ..) rfl
    rw [merge_cons, set_of_notMem hentry, ih (by rwa [List.append_assoc]), List.append_assoc]
    rfl

theorem merge_nil_left (h : (names fields).Nodup) : merge [] fields = fields := merge_of_nodup h

theorem merge_of_get? (h : ∀ entry ∈ more, get? fields entry.1 = some entry.2) :
    merge fields more = fields := by
  induction more with
  | nil => rfl
  | cons entry more ih =>
    rw [merge_cons, set_of_get? (h entry (List.mem_cons_self ..))]
    exact ih fun other hother => h other (List.mem_cons_of_mem _ hother)

theorem merge_append (fields more rest : Fields α) : merge fields (more ++ rest) = merge (merge fields more) rest :=
  List.foldl_append

theorem mem_names_set_of_mem (h : name ∈ names fields) (key : String) (value : α) :
    name ∈ names (set fields key value) := by
  rw [names_set]
  split_ifs
  · exact h
  · exact List.mem_append_left _ h

theorem subset_names_merge (fields more : Fields α) : names more ⊆ names (merge fields more) := by
  intro name hname
  have hwritten : has more.reverse name = true :=
    has_iff.mpr (by rwa [names, List.map_reverse, List.mem_reverse])
  rw [has] at hwritten
  rw [← has_iff, has, get?_merge, Option.isSome_or, hwritten, Bool.true_or]

theorem merge_set_of_notMem (hmore : names more ⊆ names fields) (hkey : key ∉ names more) (value : α) :
    merge (set fields key value) more = set (merge fields more) key value := by
  induction more generalizing fields with
  | nil => rfl
  | cons entry more ih =>
    rw [names_cons, List.cons_subset] at hmore
    rw [names_cons, List.mem_cons, not_or] at hkey
    rw [merge_cons, merge_cons, ← set_comm hmore.1 (Ne.symm hkey.1)]
    exact ih (fun name hname => mem_names_set_of_mem (hmore.2 hname) _ _) hkey.2

/-- A value written before names that are there are merged does not count if its name is written again. -/
theorem set_merge_set (hmore : names more ⊆ names fields) (key : String) (old value : α) :
    set (merge (set fields key old) more) key value = set (merge fields more) key value := by
  induction more generalizing fields with
  | nil => exact set_set fields key old value
  | cons entry more ih =>
    rw [names_cons, List.cons_subset] at hmore
    have hrest : names more ⊆ names (set fields entry.1 entry.2) := fun name hname =>
      mem_names_set_of_mem (hmore.2 hname) _ _
    rw [merge_cons, merge_cons]
    by_cases h : entry.1 = key
    · rw [h, set_set]
    · rw [← set_comm hmore.1 h, ih hrest]

/-- **Merging a second time changes nothing.** -/
theorem merge_merge_self (fields more : Fields α) : merge (merge fields more) more = merge fields more := by
  induction more using List.reverseRecOn with
  | nil => rfl
  | append_singleton more entry ih =>
    rw [merge_append, merge_append]
    change set (merge (set (merge fields more) entry.1 entry.2) more) entry.1 entry.2 = set _ entry.1 entry.2
    rw [set_merge_set (subset_names_merge fields more), ih]

theorem get?_reverse (h : (names fields).Nodup) (key : String) : get? fields.reverse key = get? fields key := by
  have hreverse : (names fields.reverse).Nodup := by
    rw [names, List.map_reverse, List.nodup_reverse]
    exact h
  cases hget : get? fields key with
  | none =>
    rw [get?_eq_none_iff] at hget ⊢
    rwa [names, List.map_reverse, List.mem_reverse]
  | some value => rwa [← mem_iff_get? hreverse, List.mem_reverse, mem_iff_get? h]

/-! ## Fields of entries -/

theorem names_ofList (entries : Fields α) : names (ofList entries) = (names entries).eraseDups := by
  induction entries using List.reverseRecOn with
  | nil => rfl
  | append_singleton entries entry ih =>
    have hconcat : ofList (entries ++ [entry]) = set (ofList entries) entry.1 entry.2 := merge_append [] entries [entry]
    have hnames : names (entries ++ [entry]) = names entries ++ [entry.1] := List.map_append
    rw [hconcat, names_set, ih, hnames, eraseDups_concat]
    simp only [List.mem_eraseDups]

theorem get?_ofList (entries : Fields α) (key : String) : get? (ofList entries) key = get? entries.reverse key := by
  rw [ofList, get?_merge]
  exact Option.or_none

/-- Fields with different names are their names with what is found under them. -/
theorem eq_filterMap_get? (h : (names fields).Nodup) :
    fields = (names fields).filterMap fun name => (get? fields name).map (Prod.mk name) := by
  induction fields with
  | nil => rfl
  | cons entry fields ih =>
    rw [names_cons, List.nodup_cons] at h
    have hrest : (names fields).filterMap (fun name => (get? (entry :: fields) name).map (Prod.mk name)) =
        (names fields).filterMap fun name => (get? fields name).map (Prod.mk name) := by
      refine List.filterMap_congr fun name hname => ?_
      rw [get?_cons, if_neg fun (heq : entry.1 = name) => h.1 (heq ▸ hname)]
    rw [names_cons, List.filterMap_cons, hrest, ← ih h.2, get?_cons, if_pos rfl]
    rfl

/-- **Of a list with repeated names, each name is at its first place with its last value.** -/
theorem ofList_eq (entries : Fields α) : ofList entries =
    (names entries).eraseDups.filterMap fun name => (get? entries.reverse name).map (Prod.mk name) := by
  have hnodup : (names (ofList entries)).Nodup := nodup_names_merge (show (names []).Nodup from List.nodup_nil) entries
  rw [eq_filterMap_get? hnodup, names_ofList]
  simp only [get?_ofList]

/-! ## Changing one value -/

theorem get?_modify (fields : Fields α) (key : String) (default : α) (f : α → α) (name : String) :
    get? (modify fields key default f) name =
      if name = key then some (f ((get? fields key).getD default)) else get? fields name := get?_set ..

theorem names_modify (fields : Fields α) (key : String) (default : α) (f : α → α) :
    names (modify fields key default f) =
      if key ∈ names fields then names fields else names fields ++ [key] := names_set ..

/-! ## Leaving out -/

theorem get?_erase (fields : Fields α) (key name : String) :
    get? (erase fields key) name = if name = key then none else get? fields name := by
  induction fields with
  | nil => simp [erase, get?]
  | cons entry fields ih =>
    rw [erase] at ih
    by_cases hentry : entry.1 = key
    · rw [erase, List.filter_cons_of_neg (by simp [hentry]), ih, get?_cons]
      split_ifs <;> simp_all
    · rw [erase, List.filter_cons_of_pos (by simp [hentry]), get?_cons, get?_cons, ih]
      split_ifs <;> simp_all

theorem names_erase_sublist (fields : Fields α) (key : String) : (names (erase fields key)).Sublist (names fields) :=
  List.Sublist.map _ List.filter_sublist

end ComponentDocs.Fields

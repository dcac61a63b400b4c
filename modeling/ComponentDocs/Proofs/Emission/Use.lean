import ComponentDocs.Graph.Emission
import ComponentDocs.Proofs.Fields

/-!
# Uses of description texts

Entities use description texts, and the first use of a text brings the node that all of them share.

* `Use`: an entity and its text, `Use.first`: the first use of each text;
* `newUses`, `learn`: the first uses of texts that are not known, and the texts known after them;
* **`first_filter_text`**: a text has one first use, that of its first entity;
* `newUses_append`, `learn_append`: texts are learned step by step.
-/

namespace ComponentDocs

/-- An entity that uses a description text. -/
structure Use where
  entity : String
  text : String
deriving DecidableEq

namespace Use

/-- The first use of each text. -/
def first : List Use → List Use
  | [] => []
  | use :: rest => use :: (first rest).filter fun other => other.text ≠ use.text

/-- The texts that are used. -/
def texts (uses : List Use) : List String := uses.map Use.text

theorem mem_texts_first {uses : List Use} {text : String} : text ∈ texts (first uses) ↔ text ∈ texts uses := by
  induction uses with
  | nil => exact Iff.rfl
  | cons use rest ih =>
    rw [texts, List.mem_map] at ih
    rw [texts, texts, first, List.map_cons, List.map_cons, List.mem_cons, List.mem_cons, List.mem_map]
    by_cases h : text = use.text
    · exact iff_of_true (Or.inl h) (Or.inl h)
    · refine or_congr_right (Iff.trans ⟨?_, ?_⟩ ih)
      · rintro ⟨other, hother, rfl⟩
        exact ⟨other, (List.mem_filter.mp hother).1, rfl⟩
      · rintro ⟨other, hother, rfl⟩
        exact ⟨other, List.mem_filter.mpr ⟨hother, decide_eq_true h⟩, rfl⟩

theorem mem_of_mem_first {uses : List Use} {use : Use} (h : use ∈ first uses) : use ∈ uses := by
  induction uses with
  | nil => exact h
  | cons other rest ih =>
    rcases List.mem_cons.mp h with rfl | h
    · exact List.mem_cons_self ..
    · exact List.mem_cons_of_mem _ (ih (List.mem_filter.mp h).1)

theorem first_append (uses more : List Use) :
    first (uses ++ more) = first uses ++ (first more).filter fun use => use.text ∉ texts uses := by
  induction uses with
  | nil => simp [first, texts]
  | cons use rest ih =>
    rw [List.cons_append, first, ih, first, List.cons_append, List.filter_append, List.filter_filter]
    congr 2
    refine List.filter_congr fun other _ => ?_
    rw [texts, texts, List.map_cons, ← Bool.decide_and]
    simp only [List.mem_cons, not_or]

theorem nodup_texts_first (uses : List Use) : (texts (first uses)).Nodup := by
  induction uses with
  | nil => exact List.nodup_nil
  | cons use rest ih =>
    rw [first, texts, List.map_cons, List.nodup_cons]
    refine ⟨fun hmem => ?_, ih.sublist (List.Sublist.map _ List.filter_sublist)⟩
    obtain ⟨other, hother, heq⟩ := List.mem_map.mp hmem
    exact of_decide_eq_true (List.mem_filter.mp hother).2 heq

/-- **A text has one first use**, that of the first entity that uses it. -/
theorem first_filter_text (uses : List Use) (text : String) : (first uses).filter (fun use => use.text = text) =
    (uses.filter fun use => use.text = text).take 1 := by
  induction uses with
  | nil => rfl
  | cons use rest ih =>
    rw [first]
    by_cases h : use.text = text
    · subst h
      have hrest : (first rest).filter
          (fun other => decide (other.text = use.text) && decide (other.text ≠ use.text)) = [] := by
        rw [List.filter_eq_nil_iff]
        intro other _
        simp only [Bool.and_eq_true, decide_eq_true_eq]
        exact fun hother => hother.2 hother.1
      simp only [List.filter_cons, decide_true, if_true, List.take_succ_cons, List.take_zero,
        List.filter_filter]
      rw [hrest]
    · simp only [List.filter_cons, h, decide_false, Bool.false_eq_true, if_false, List.filter_filter]
      rw [← ih]
      refine List.filter_congr fun other _ => ?_
      rw [← Bool.decide_and, decide_eq_decide]
      exact ⟨fun hother => hother.1, fun hother => ⟨hother, fun heq => h (heq.symm.trans hother)⟩⟩

theorem mem_first_of_filter_text {uses rest : List Use} {use : Use} {text : String}
    (h : (uses.filter fun use => use.text = text) = use :: rest) : use ∈ first uses := by
  have hmem : use ∈ (first uses).filter fun use => use.text = text := by
    rw [first_filter_text, h]
    exact List.mem_cons_self
  exact (List.mem_filter.mp hmem).1

end Use

/-! ## Known texts -/

section

variable (descriptionId : String → String) (known : Fields String)

/-- The first uses of texts that are not known. -/
def newUses (uses : List Use) : List Use := (Use.first uses).filter fun use => !Fields.has known use.text

/-- The known texts with those that are used. -/
def learn (uses : List Use) : Fields String :=
  known ++ (newUses known uses).map fun use => (use.text, descriptionId use.text)

/-- The identifiers of the known texts are those of their descriptions. -/
def Knows : Prop := ∀ text id, Fields.get? known text = some id → id = descriptionId text

variable {descriptionId known}

theorem newUses_nil_left (uses : List Use) : newUses [] uses = Use.first uses :=
  List.filter_eq_self.mpr fun _ _ => rfl

theorem names_learn (uses : List Use) : Fields.names (learn descriptionId known uses) =
    Fields.names known ++ (newUses known uses).map Use.text := by
  rw [learn, Fields.names, List.map_append, List.map_map]
  rfl

theorem has_learn (uses : List Use) (text : String) :
    Fields.has (learn descriptionId known uses) text = true ↔
      Fields.has known text = true ∨ text ∈ Use.texts uses := by
  rw [Fields.has_iff, Fields.has_iff, names_learn, ← Use.mem_texts_first, List.mem_append, List.mem_map]
  by_cases h : text ∈ Fields.names known
  · exact iff_of_true (Or.inl h) (Or.inl h)
  · refine or_congr_right ⟨?_, ?_⟩
    · rintro ⟨use, huse, rfl⟩
      exact List.mem_map_of_mem (List.mem_filter.mp huse).1
    · intro htext
      obtain ⟨use, huse, rfl⟩ := List.mem_map.mp htext
      refine ⟨use, List.mem_filter.mpr ⟨huse, ?_⟩, rfl⟩
      rw [Bool.not_eq_true', ← Bool.not_eq_true, Fields.has_iff]
      exact h

variable (descriptionId) in
theorem newUses_append (uses more : List Use) : newUses known (uses ++ more) =
    newUses known uses ++ newUses (learn descriptionId known uses) more := by
  rw [newUses, Use.first_append, List.filter_append, List.filter_filter]
  congr 1
  refine List.filter_congr fun use _ => ?_
  rw [Bool.eq_iff_iff, Bool.and_eq_true, decide_eq_true_eq, Bool.not_eq_true', Bool.not_eq_true',
    ← Bool.not_eq_true, ← Bool.not_eq_true, has_learn, not_or]

theorem learn_append (uses more : List Use) : learn descriptionId known (uses ++ more) =
    learn descriptionId (learn descriptionId known uses) more := by
  rw [learn, newUses_append descriptionId, List.map_append, ← List.append_assoc]
  rfl

theorem knows_nil : Knows descriptionId [] := fun _ _ h => absurd h (by simp [Fields.get?])

theorem Knows.learn (h : Knows descriptionId known) (uses : List Use) :
    Knows descriptionId (learn descriptionId known uses) := by
  intro text id hget
  rw [ComponentDocs.learn, Fields.get?_append, Option.or_eq_some_iff] at hget
  rcases hget with hget | ⟨-, hget⟩
  · exact h text id hget
  · obtain ⟨use, -, heq⟩ := List.mem_map.mp (Fields.mem_of_get? hget)
    obtain ⟨rfl, rfl⟩ := Prod.mk.inj heq
    rfl

end

end ComponentDocs

import ComponentDocs.Json.Basic

/-!
# Equal values

* **`Json.beq_iff`**: the comparison of values finds out whether they are equal.
-/

namespace ComponentDocs.Json

mutual

/-- **The comparison of values finds out whether they are equal.** -/
theorem beq_iff : ∀ a b : Json, beq a b = true ↔ a = b
  | null, b => by cases b <;> simp [beq]
  | bool _, b => by cases b <;> simp [beq]
  | int _, b => by cases b <;> simp [beq]
  | decimal _, b => by cases b <;> simp [beq]
  | str _, b => by cases b <;> simp [beq]
  | arr items, b => by cases b <;> simp [beq, beqItems_iff items]
  | obj fields, b => by cases b <;> simp [beq, beqFields_iff fields]

theorem beqItems_iff : ∀ items others : List Json, beqItems items others = true ↔ items = others
  | [], others => by cases others <;> simp [beqItems]
  | item :: rest, others => by cases others <;> simp [beqItems, beq_iff item, beqItems_iff rest]

theorem beqFields_iff : ∀ fields others : List (String × Json), beqFields fields others = true ↔ fields = others
  | [], others => by cases others <;> simp [beqFields]
  | (name, value) :: rest, others => by
    cases others <;> simp [beqFields, beq_iff value, beqFields_iff rest, Prod.ext_iff]

end

instance : LawfulBEq Json where
  eq_of_beq := fun {a b} h => (beq_iff a b).mp h
  rfl := fun {a} => (beq_iff a a).mpr rfl

end ComponentDocs.Json

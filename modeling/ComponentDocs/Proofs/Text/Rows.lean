import ComponentDocs.Proofs.Text.Lines
import ComponentDocs.Proofs.Text.Pieces

/-!
# Rows and lines

Rows are what stands between line feeds; lines end at every line break. Where rows hold no other break than a
carriage return at their end, the two are the same.

* `IsPlainRow`, `rowText`: such a row, and the row without a carriage return at its end;
* **`getElem?_splitLines`**: the row at a place is the line with the same number, or it is empty and behind the last
  line.
-/

namespace ComponentDocs.Text

/-- The row without a carriage return at its end. -/
def rowText (row : List Char) : List Char := if row.getLast? = some '\r' then row.dropLast else row

/-- No line break stands in the row, but a carriage return may end it. -/
def IsPlainRow (row : List Char) : Prop := ∀ c ∈ rowText row, isLineBreak c = false

theorem row_cases (row : List Char) : row = rowText row ∨ row = rowText row ++ ['\r'] := by
  unfold rowText
  split_ifs with hlast
  · obtain ⟨init, rfl⟩ := List.getLast?_eq_some_iff.mp hlast
    exact .inr (by rw [List.dropLast_concat])
  · exact .inl rfl

theorem trimEnd_append_rowText (cs row : List Char) : trimEnd (cs ++ rowText row) = trimEnd (cs ++ row) := by
  rcases row_cases row with h | h
  · rw [← h]
  · conv_rhs => rw [h, ← List.append_assoc, trimEnd_append_of_blank _ (by decide)]

/-! ## Lines -/

theorem splitLines_row {row : List Char} (h : IsPlainRow row) (rest : List Char) :
    splitLines (row ++ '\n' :: rest) = rowText row :: splitLines rest := by
  rcases row_cases row with hrow | hrow
  · conv_lhs => rw [hrow]
    exact splitLines_append_line_feed h rest
  · conv_lhs => rw [hrow, List.append_assoc, List.singleton_append]
    exact splitLines_append_of_break h (by rw [splitLines])

theorem splitLines_last_row {row : List Char} (h : IsPlainRow row) (hne : row ≠ []) :
    splitLines row = [rowText row] := by
  rcases row_cases row with hrow | hrow
  · rw [hrow] at hne
    conv_lhs => rw [hrow]
    exact splitLines_of_unbroken h hne
  · conv_lhs => rw [hrow]
    exact splitLines_append_of_break h (by decide)

/-- **The row at a place is the line with the same number**, or it is empty and behind the last line, if the rows up
to this place are plain. -/
theorem getElem?_splitLines {cs row : List Char} {i : ℕ} (hrow : (splitAt '\n' cs)[i]? = some row)
    (hplain : ∀ r ∈ (splitAt '\n' cs).take (i + 1), IsPlainRow r) :
    (splitLines cs)[i]? = some (rowText row) ∨ (splitLines cs).length = i ∧ row = [] := by
  induction i generalizing cs with
  | zero =>
    rcases splitAt_cases '\n' cs with ⟨-, hsplit⟩ | ⟨first, rest, -, hcs, hsplit⟩
    · rw [hsplit] at hrow hplain
      obtain rfl : cs = row := Option.some.inj hrow
      by_cases hne : cs = []
      · exact .inr ⟨by rw [hne]; rfl, hne⟩
      · left
        rw [splitLines_last_row (hplain cs (by simp)) hne]
        rfl
    · rw [hsplit] at hrow hplain
      obtain rfl : first = row := Option.some.inj hrow
      left
      rw [hcs, splitLines_row (hplain first (by simp))]
      rfl
  | succ i ih =>
    rcases splitAt_cases '\n' cs with ⟨-, hsplit⟩ | ⟨first, rest, -, hcs, hsplit⟩
    · rw [hsplit] at hrow
      simp at hrow
    · rw [hsplit] at hrow hplain
      rw [List.take_succ_cons] at hplain
      rw [hcs, splitLines_row (hplain first List.mem_cons_self), List.length_cons, Nat.add_right_cancel_iff]
      exact ih hrow fun r hr => hplain r (List.mem_cons_of_mem _ hr)

end ComponentDocs.Text

import ComponentDocs.Proofs.Text.Pieces
import ComponentDocs.Proofs.Text.Utf8
import ComponentDocs.Source.File

/-!
# Places in a source

Nodes have offsets into the bytes of a source; places that are shown have a row and a column of its text.

* `SourceFile.Holds`: the source has the bytes of a text;
* `row_lt`: the row of any offset is a row of the text;
* **`position_of_text`**: between two characters of the text, the row and the column count line feeds and characters.
-/

namespace ComponentDocs.SourceFile

open Text

/-- The source has the bytes of the text. -/
def Holds (src : SourceFile) (cs : List Char) : Prop := src.code = (encode cs).toArray

variable {src : SourceFile} {cs : List Char}

theorem Holds.slice (h : src.Holds cs) (start stop : ℕ) : src.slice start stop = ((encode cs).take stop).drop start := by
  rw [SourceFile.slice, h]
  simp [List.drop_take]

theorem Holds.row_le (h : src.Holds cs) (offset : ℕ) : src.row offset ≤ cs.count '\n' := by
  rw [row, h.slice, List.drop_zero, ← count_encode]
  exact (List.take_sublist offset _).count_le 10

theorem Holds.row_lt (h : src.Holds cs) (offset : ℕ) : src.row offset < (splitAt '\n' cs).length := by
  rw [length_splitAt]
  exact Nat.lt_succ_of_le (h.row_le offset)

/-! ## Between two characters -/

variable {before front after : List Char}

theorem lineStart_of_bytes {bytes : List UInt8} {offset : ℕ} (h : src.slice 0 offset = encode before ++ bytes)
    (hbytes : 10 ∉ bytes) (hbefore : before = [] ∨ before.getLast? = some '\n') :
    src.lineStart offset = (encode before).length := by
  have hall : ∀ b ∈ bytes.reverse, (decide (b ≠ 10)) = true := by
    intro b hb
    exact decide_eq_true fun heq => hbytes (heq ▸ List.mem_reverse.mp hb)
  have hstop : (encode before).reverse.takeWhile (· ≠ 10) = [] := by
    rcases hbefore with rfl | hlast
    · rfl
    · obtain ⟨init, rfl⟩ := List.getLast?_eq_some_iff.mp hlast
      rw [encode_append, List.reverse_append]
      rfl
  rw [lineStart, h, List.reverse_append, List.takeWhile_append_of_pos hall, hstop, List.append_nil,
    List.length_append, List.length_reverse, Nat.add_sub_cancel]

/-- Between two characters the row counts the line feeds in front, and the characters of the row are those since the last
of them. -/
theorem Holds.row_and_characters (h : src.Holds (before ++ front ++ after)) (hfront : '\n' ∉ front)
    (hbefore : before = [] ∨ before.getLast? = some '\n') :
    src.row (encode (before ++ front)).length = before.count '\n' ∧
      src.characters (src.lineStart (encode (before ++ front)).length) (encode (before ++ front)).length = front := by
  have hslice : src.slice 0 (encode (before ++ front)).length = encode before ++ encode front := by
    rw [h.slice, encode_append (before ++ front), List.take_left, List.drop_zero, encode_append]
  have hfeeds : (encode front).count 10 = 0 := by rw [count_encode, List.count_eq_zero.mpr hfront]
  refine ⟨by rw [row, hslice, List.count_append, hfeeds, count_encode, Nat.add_zero], ?_⟩
  rw [lineStart_of_bytes hslice (List.count_eq_zero.mp hfeeds) hbefore, characters, h.slice,
    encode_append (before ++ front), List.take_left, encode_append, List.drop_left, decode_encode]

/-- **Between two characters the row counts the line feeds in front, and the column the characters in front since the
last of them.** -/
theorem Holds.position_of_text (h : src.Holds (before ++ front ++ after)) (hfront : '\n' ∉ front)
    (hbefore : before = [] ∨ before.getLast? = some '\n') :
    src.position (encode (before ++ front)).length = ⟨before.count '\n' + 1, front.length + 1⟩ := by
  obtain ⟨hrow, hcharacters⟩ := h.row_and_characters hfront hbefore
  rw [position, hrow, hcharacters]

end ComponentDocs.SourceFile

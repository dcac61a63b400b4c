import ComponentDocs.Proofs.Lists
import ComponentDocs.Proofs.Text.Lines
import ComponentDocs.Proofs.Text.Pieces
import ComponentDocs.Text.Excerpt

/-!
# Excerpts with one marked line

* `Marks`: one line of a frame is marked, and the line below it points to a column of the shown text;
* `excerptLines_append`: the lines in front of the place, the place, and the lines behind it;
* **`marks_excerpt`**: an excerpt marks the line of its place.
-/

namespace ComponentDocs.Text

/-- One line of the frame is marked. It shows the text behind a head with the number, without blanks at the end; the
line below it has a pointer, which stands under the column of the text. No other line is marked. -/
def Marks (frame : List Char) (number : ℕ) (text : List Char) (column : ℕ) : Prop :=
  ∃ above head margin below pad,
    splitAt '\n' frame =
      above ++ trimEnd (head ++ text) :: (margin ++ List.replicate (column - 1) ' ' ++ ['^']) :: below ∧
    head = '>' :: ' ' :: List.replicate pad ' ' ++ Nat.toDigits 10 number ++ [' ', '|', ' '] ∧
    margin.length = head.length ∧ (trimEnd (head ++ text)).head? = some '>' ∧
    ∀ line ∈ above ++ (margin ++ List.replicate (column - 1) ' ' ++ ['^']) :: below, line.head? = some ' '

theorem Marks.congr {frame text other : List Char} {number column : ℕ} (h : Marks frame number text column)
    (heq : ∀ head, trimEnd (head ++ text) = trimEnd (head ++ other)) : Marks frame number other column := by
  obtain ⟨above, head, margin, below, pad, hsplit, hhead, hmargin, hmark, hothers⟩ := h
  exact ⟨above, head, margin, below, pad, heq head ▸ hsplit, hhead, hmargin, heq head ▸ hmark, hothers⟩

/-! ## Shown lines -/

/-- What a shown line holds in front of the text. -/
def shownHead (gutter : ℕ) (marked : Bool) (number : ℕ) : List Char :=
  (if marked then '>' else ' ') :: ' ' :: alignRight gutter (Nat.toDigits 10 number) ++ [' ', '|', ' ']

theorem excerptLine_eq (gutter : ℕ) (marked : Bool) (number : ℕ) (line : List Char) :
    excerptLine gutter marked number line = trimEnd (shownHead gutter marked number ++ line) := rfl

/-- The bar keeps the start of a shown line from being trimmed. -/
theorem head?_excerptLine (gutter : ℕ) (marked : Bool) (number : ℕ) (line : List Char) :
    (excerptLine gutter marked number line).head? = some (if marked then '>' else ' ') := by
  rw [excerptLine_eq, shownHead, List.cons_append, List.cons_append, List.cons_append, trimEnd_cons, if_neg]
  · rfl
  · simp [show isBlank '|' = false from by decide]

theorem mem_of_mem_trimEnd {c : Char} {cs : List Char} (h : c ∈ trimEnd cs) : c ∈ cs := by
  obtain ⟨ws, -, hcs⟩ := exists_eq_trimEnd_append cs
  rw [hcs]
  exact List.mem_append_left _ h

theorem line_feed_notMem_excerptLine {line : List Char} (h : '\n' ∉ line) (gutter : ℕ) (marked : Bool) (number : ℕ) :
    '\n' ∉ excerptLine gutter marked number line := by
  intro hmem
  have hshown := mem_of_mem_trimEnd (excerptLine_eq gutter marked number line ▸ hmem)
  have hdigits : '\n' ∉ Nat.toDigits 10 number := notMem_toDigits (by decide) number
  cases marked <;> simp_all [shownHead, alignRight]

theorem line_feed_notMem_pointerLine (gutter column : ℕ) : '\n' ∉ pointerLine gutter column := by
  simp [pointerLine]

/-! ## Around the place -/

variable (gutter place : ℕ) (column : Int)

theorem excerptLines_append (number : ℕ) (lines more : List (List Char)) :
    excerptLines gutter place column number (lines ++ more) =
      excerptLines gutter place column number lines ++ excerptLines gutter place column (number + lines.length) more := by
  induction lines generalizing number with
  | nil => rfl
  | cons line lines ih =>
    rw [List.cons_append, excerptLines, excerptLines, ih, List.length_cons, ← List.append_assoc, Nat.add_assoc,
      Nat.add_comm 1]

theorem head?_of_mem_excerptLines {number : ℕ} {lines : List (List Char)}
    (h : ∀ i < lines.length, number + i ≠ place) :
    ∀ shown ∈ excerptLines gutter place column number lines, shown.head? = some ' ' := by
  induction lines generalizing number with
  | nil => simp [excerptLines]
  | cons line lines ih =>
    have hne : number ≠ place := h 0 (by simp)
    intro shown hshown
    rw [excerptLines, if_neg (fun hplace => hne hplace.1), beq_eq_false_iff_ne.mpr hne] at hshown
    rcases List.mem_cons.mp hshown with rfl | hshown
    · exact head?_excerptLine gutter false number line
    · refine ih (fun i hi => ?_) shown hshown
      have := h (i + 1) (by simpa using hi)
      omega

theorem line_feed_notMem_of_mem_excerptLines {number : ℕ} {lines : List (List Char)} (h : ∀ line ∈ lines, '\n' ∉ line) :
    ∀ shown ∈ excerptLines gutter place column number lines, '\n' ∉ shown := by
  induction lines generalizing number with
  | nil => simp [excerptLines]
  | cons line lines ih =>
    intro shown hshown
    rw [excerptLines, List.mem_append, List.mem_cons] at hshown
    rcases hshown with (rfl | hpointer) | hshown
    · exact line_feed_notMem_excerptLine (h line List.mem_cons_self) _ _ _
    · split_ifs at hpointer
      · rw [List.mem_singleton.mp hpointer]
        exact line_feed_notMem_pointerLine _ _
      · exact absurd hpointer List.not_mem_nil
    · exact ih (fun other hother => h other (List.mem_cons_of_mem _ hother)) shown hshown

/-- The shown lines are those in front of the place, the place, the pointer, and those behind it. -/
theorem excerptLines_of_getElem? {first : ℕ} {lines : List (List Char)} {line : List Char} {k : ℕ}
    (hline : lines[k]? = some line) (hplace : first + k = place) (hcolumn : 0 < column) :
    excerptLines gutter place column first lines =
      excerptLines gutter place column first (lines.take k) ++
        excerptLine gutter true place line :: pointerLine gutter column.toNat ::
          excerptLines gutter place column (place + 1) (lines.drop (k + 1)) := by
  obtain ⟨hk, rfl⟩ := List.getElem?_eq_some_iff.mp hline
  have hlength : (lines.take k).length = k := List.length_take_of_le (Nat.le_of_lt hk)
  conv_lhs => rw [← List.take_append_drop k lines, List.drop_eq_getElem_cons hk, excerptLines_append, hlength, hplace]
  rw [excerptLines, beq_self_eq_true, if_pos ⟨rfl, hcolumn⟩]
  rfl

/-! ## Excerpts -/

theorem head?_pointerLine (gutter column : ℕ) : (pointerLine gutter column).head? = some ' ' := by
  simp [pointerLine]

theorem marks_shown {lines : List (List Char)} {line : List Char} {first last place : ℕ} (column : ℕ)
    (hbreaks : ∀ line ∈ lines, '\n' ∉ line) (hline : lines[place - 1]? = some line) (hfirst : 1 ≤ first)
    (hplace : first ≤ place) (hlast : place ≤ last) :
    Marks (joinLines (excerptLines (Nat.toDigits 10 last).length place (column + 1 : ℕ) first
      ((lines.drop (first - 1)).take (last + 1 - first)))) place line (column + 1) := by
  have hdigits := length_toDigits_mono hlast
  generalize (Nat.toDigits 10 last).length = gutter at hdigits ⊢
  have hshown : ((lines.drop (first - 1)).take (last + 1 - first))[place - first]? = some line := by
    rw [List.getElem?_take_of_lt (by omega), List.getElem?_drop, ← hline]
    congr 1
    omega
  have hbreaks' : ∀ other ∈ (lines.drop (first - 1)).take (last + 1 - first), '\n' ∉ other :=
    fun other hother => hbreaks other (List.mem_of_mem_drop (List.mem_of_mem_take hother))
  generalize (lines.drop (first - 1)).take (last + 1 - first) = shown at hshown hbreaks'
  have hplace' : first + (place - first) = place := by omega
  have hlines := excerptLines_of_getElem? gutter place (column + 1 : ℕ) hshown hplace' (by omega)
  have hsplit : splitAt '\n' (joinLines (excerptLines gutter place (column + 1 : ℕ) first shown)) =
      excerptLines gutter place (column + 1 : ℕ) first shown :=
    splitAt_join (by rw [hlines]; simp) (line_feed_notMem_of_mem_excerptLines _ _ _ hbreaks')
  refine ⟨_, shownHead gutter true place, [' ', ' '] ++ List.replicate gutter ' ' ++ [' ', '|', ' '], _,
    gutter - (Nat.toDigits 10 place).length, hsplit.trans hlines, ?_, ?_, head?_excerptLine gutter true place line, ?_⟩
  · simp [shownHead, alignRight]
  · simp [shownHead, alignRight]
    omega
  · intro other hother
    rw [List.mem_append, List.mem_cons] at hother
    rcases hother with hother | rfl | hother
    · refine head?_of_mem_excerptLines _ _ _ (fun i hi => ?_) other hother
      have := List.length_take_le (place - first) shown
      omega
    · exact head?_pointerLine gutter (column + 1)
    · exact head?_of_mem_excerptLines _ _ _ (fun i _ => by omega) other hother

/-- **An excerpt marks the line of its place**, or the last line if the place lies behind it. -/
theorem marks_excerpt {source : String} (row column : ℕ) {line : List Char}
    (hline : (splitLines source.toList)[min row ((splitLines source.toList).length - 1)]? = some line) :
    Marks (excerpt source (some ⟨row + 1, column + 1⟩) .standard).toList
      (min (row + 1) (splitLines source.toList).length) line (column + 1) := by
  have hbreaks : ∀ line ∈ splitLines source.toList, '\n' ∉ line := fun line hline hmem =>
    absurd (mem_of_mem_splitLines _ line hline _ hmem).2 (by decide)
  have hlength : 0 < (splitLines source.toList).length := by
    rw [List.length_pos_iff]
    intro hnil
    rw [hnil] at hline
    simp at hline
  unfold excerpt
  dsimp only
  generalize splitLines source.toList = lines at hbreaks hlength hline ⊢
  rw [if_neg (by simpa using List.length_pos_iff.mp hlength), String.toList_ofList]
  have hplace : clampLine lines.length (row + 1) = min (row + 1) lines.length := by
    unfold clampLine
    omega
  rw [hplace]
  refine marks_shown column hbreaks ?_ ?_ ?_ ?_
  · rw [← hline]
    congr 1
    omega
  all_goals
    simp only [Window.standard]
    omega

end ComponentDocs.Text

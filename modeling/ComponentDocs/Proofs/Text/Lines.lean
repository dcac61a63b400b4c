import ComponentDocs.Proofs.Text.Trim
import ComponentDocs.Text.Lines

/-!
# Lines of a text

The lines of a text, and those of them that are not blank.

* `mem_of_mem_splitLines`: lines hold no line break;
* `filledLines`: the lines of a text that are not blank;
* `exists_splitLines_append`: a line break parts the lines of a text, with or without an empty one between them;
* **`splitLines_joinLines`**: lines that were joined are found again.
-/

namespace ComponentDocs.Text

/-! ## Breaks -/

theorem withLineFeeds_of_notMem {cs : List Char} (h : '\r' ∉ cs) : withLineFeeds cs = cs := by
  fun_induction withLineFeeds cs with
  | case1 => rfl
  | case2 rest ih => simp at h
  | case3 c rest hrest ih =>
    rw [List.mem_cons, not_or] at h
    rw [if_neg (Ne.symm h.1), ih h.2]

theorem isBlank_of_isLineBreak {c : Char} (h : isLineBreak c = true) : isBlank c = true := by
  unfold isLineBreak at h
  rw [List.contains_iff_mem] at h
  have hsub : ∀ n ∈ lineBreakCodes, blankCodes.contains n = true := by decide
  exact hsub _ h

theorem splitLines_of_not_break {c : Char} (hc : isLineBreak c = false) (rest : List Char) :
    splitLines (c :: rest) = consLine c (splitLines rest) := by
  have hcr : c ≠ '\r' := by
    rintro rfl
    exact absurd hc (by decide)
  rw [splitLines]
  · rw [hc]
    rfl
  · rintro rest rfl
    exact absurd rfl hcr

theorem splitLines_line_feed (rest : List Char) : splitLines ('\n' :: rest) = [] :: splitLines rest := by
  rw [splitLines]
  · rfl
  · intro rest h
    exact absurd h (by decide)

theorem splitLines_eq_nil_iff {cs : List Char} : splitLines cs = [] ↔ cs = [] := by
  fun_cases splitLines cs with
  | case1 => simp
  | case2 rest => simp
  | case3 c rest _ hc => simp
  | case4 c rest _ hc => cases splitLines rest <;> simp [consLine]

theorem mem_consLine {c : Char} {lines : List (List Char)} {line : List Char} (h : line ∈ consLine c lines) :
    (∃ rest, line = c :: rest ∧ (rest = [] ∨ rest ∈ lines)) ∨ line ∈ lines := by
  cases lines with
  | nil => exact Or.inl ⟨[], List.mem_singleton.mp h, Or.inl rfl⟩
  | cons first others =>
    rcases List.mem_cons.mp h with rfl | h
    · exact Or.inl ⟨first, rfl, Or.inr (List.mem_cons_self ..)⟩
    · exact Or.inr (List.mem_cons_of_mem _ h)

theorem mem_of_mem_splitLines (cs : List Char) :
    ∀ line ∈ splitLines cs, ∀ c ∈ line, c ∈ cs ∧ isLineBreak c = false := by
  fun_induction splitLines cs with
  | case1 => simp
  | case2 rest ih =>
    intro line hline c hc
    rcases List.mem_cons.mp hline with rfl | hline
    · exact absurd hc List.not_mem_nil
    · obtain ⟨hmem, hbreak⟩ := ih line hline c hc
      exact ⟨List.mem_cons_of_mem _ (List.mem_cons_of_mem _ hmem), hbreak⟩
  | case3 d rest _ _ ih =>
    intro line hline c hc
    rcases List.mem_cons.mp hline with rfl | hline
    · exact absurd hc List.not_mem_nil
    · obtain ⟨hmem, hbreak⟩ := ih line hline c hc
      exact ⟨List.mem_cons_of_mem _ hmem, hbreak⟩
  | case4 d rest _ hd ih =>
    intro line hline c hc
    have hrest : ∀ other ∈ splitLines rest, c ∈ other → c ∈ d :: rest ∧ isLineBreak c = false := by
      intro other hother hc
      obtain ⟨hmem, hbreak⟩ := ih other hother c hc
      exact ⟨List.mem_cons_of_mem _ hmem, hbreak⟩
    rcases mem_consLine hline with ⟨others, rfl, hothers⟩ | hline
    · rcases List.mem_cons.mp hc with rfl | hc
      · exact ⟨List.mem_cons_self .., Bool.eq_false_iff.mpr hd⟩
      · rcases hothers with rfl | hothers
        · exact absurd hc List.not_mem_nil
        · exact hrest others hothers hc
    · exact hrest line hline hc

theorem isBlankLine_of_mem_splitLines {cs line : List Char} (h : isBlankLine cs = true)
    (hline : line ∈ splitLines cs) : isBlankLine line = true := by
  rw [isBlankLine_iff] at h ⊢
  intro c hc
  exact h c (mem_of_mem_splitLines cs line hline c hc).1

/-! ## Filled lines -/

/-- The lines that are not blank. -/
def filled (lines : List (List Char)) : List (List Char) := lines.filter fun line => !isBlankLine line

/-- The lines of a text that are not blank. -/
def filledLines (cs : List Char) : List (List Char) := filled (splitLines cs)

theorem filled_cons_of_blank {line : List Char} (h : isBlankLine line = true) (lines : List (List Char)) :
    filled (line :: lines) = filled lines := List.filter_cons_of_neg (by rw [h]; decide)

theorem filled_cons_of_not_blank {line : List Char} (h : isBlankLine line = false)
    (lines : List (List Char)) : filled (line :: lines) = line :: filled lines :=
  List.filter_cons_of_pos (by rw [h]; rfl)

theorem filled_append (lines others : List (List Char)) :
    filled (lines ++ others) = filled lines ++ filled others := List.filter_append ..

theorem mem_filled {lines : List (List Char)} {line : List Char} :
    line ∈ filled lines ↔ line ∈ lines ∧ isBlankLine line = false := by
  rw [filled, List.mem_filter, Bool.not_eq_true']

/-! ## Joined lines -/

theorem join_concat (separator : List Char) (pieces : List (List Char)) (piece : List Char) :
    join separator (pieces ++ [piece]) =
      if pieces = [] then piece else join separator pieces ++ separator ++ piece := by
  induction pieces with
  | nil => rfl
  | cons first pieces ih =>
    rw [if_neg (List.cons_ne_nil _ _)]
    cases pieces with
    | nil => rfl
    | cons second pieces =>
      rw [if_neg (List.cons_ne_nil _ _)] at ih
      change first ++ separator ++ join separator (second :: pieces ++ [piece]) = _
      rw [ih]
      change _ = first ++ separator ++ join separator (second :: pieces) ++ separator ++ piece
      simp only [List.append_assoc]

theorem join_eq_nil_iff {separator : List Char} {pieces : List (List Char)}
    (hpieces : ∀ piece ∈ pieces, piece ≠ []) : join separator pieces = [] ↔ pieces = [] := by
  cases pieces with
  | nil => exact iff_of_true rfl rfl
  | cons piece pieces =>
    refine iff_of_false (fun h => ?_) (List.cons_ne_nil _ _)
    have hpiece := hpieces piece (List.mem_cons_self ..)
    cases pieces with
    | nil => exact hpiece h
    | cons second pieces =>
      rw [join, List.append_eq_nil_iff, List.append_eq_nil_iff] at h
      · exact hpiece h.1.1
      · simp

theorem joinLines_cons {line : List Char} {lines : List (List Char)} (h : lines ≠ []) :
    joinLines (line :: lines) = line ++ '\n' :: joinLines lines := by
  rw [joinLines, join, List.append_assoc]
  · rfl
  · exact h

/-- A text without breaks in front of a break is a line. -/
theorem splitLines_append_of_break {line cs : List Char} {lines : List (List Char)}
    (hline : ∀ c ∈ line, isLineBreak c = false) (h : splitLines cs = [] :: lines) :
    splitLines (line ++ cs) = line :: lines := by
  induction line with
  | nil => exact h
  | cons c line ih =>
    rw [List.cons_append, splitLines_of_not_break (hline c List.mem_cons_self),
      ih fun d hd => hline d (List.mem_cons_of_mem _ hd)]
    rfl

theorem splitLines_append_line_feed {line : List Char} (hline : ∀ c ∈ line, isLineBreak c = false)
    (rest : List Char) : splitLines (line ++ '\n' :: rest) = line :: splitLines rest :=
  splitLines_append_of_break hline (splitLines_line_feed rest)

theorem splitLines_of_unbroken {line : List Char} (hline : ∀ c ∈ line, isLineBreak c = false)
    (hne : line ≠ []) : splitLines line = [line] := by
  induction line with
  | nil => exact absurd rfl hne
  | cons c line ih =>
    rw [splitLines_of_not_break (hline c (List.mem_cons_self ..))]
    by_cases h : line = []
    · rw [h]
      rfl
    · rw [ih (fun d hd => hline d (List.mem_cons_of_mem _ hd)) h]
      rfl

/-- A line feed after a text ends its last line, or is an empty line of its own. -/
theorem exists_splitLines_append (cs rest : List Char) : ∃ gap, (gap = [] ∨ gap = [[]]) ∧
    splitLines (cs ++ '\n' :: rest) = splitLines cs ++ gap ++ splitLines rest := by
  fun_induction splitLines cs with
  | case1 => exact ⟨[[]], .inr rfl, splitLines_line_feed rest⟩
  | case2 cs ih =>
    obtain ⟨gap, hgap, h⟩ := ih
    refine ⟨gap, hgap, ?_⟩
    rw [List.cons_append, List.cons_append, splitLines, h]
    rfl
  | case3 c cs hcrlf hc ih =>
    by_cases hcr : c = '\r' ∧ cs = []
    · obtain ⟨rfl, rfl⟩ := hcr
      exact ⟨[], .inl rfl, rfl⟩
    · obtain ⟨gap, hgap, h⟩ := ih
      refine ⟨gap, hgap, ?_⟩
      rw [List.cons_append, splitLines, if_pos hc, h]
      · rfl
      · rintro others rfl heq
        cases cs with
        | nil => exact hcr ⟨rfl, rfl⟩
        | cons d cs => exact hcrlf cs rfl (by rw [(List.cons.inj heq).1])
  | case4 c cs hcrlf hc ih =>
    obtain ⟨gap, hgap, h⟩ := ih
    rw [List.cons_append, splitLines_of_not_break (Bool.eq_false_iff.mpr hc)]
    by_cases hcs : cs = []
    · rw [hcs, List.nil_append, splitLines_line_feed]
      exact ⟨[], .inl rfl, rfl⟩
    · obtain ⟨line, lines, hlines⟩ : ∃ line lines, splitLines cs = line :: lines :=
        List.exists_cons_of_ne_nil (splitLines_eq_nil_iff.not.mpr hcs)
      refine ⟨gap, hgap, ?_⟩
      rw [h, hlines]
      rfl

/-- **Lines that were joined are found again**, but for a last one that is empty. -/
theorem splitLines_joinLines {lines : List (List Char)} (hlines : ∀ line ∈ lines, ∀ c ∈ line, isLineBreak c = false) :
    splitLines (joinLines lines) = lines ∨ splitLines (joinLines lines) ++ [[]] = lines := by
  induction lines with
  | nil => exact .inl rfl
  | cons line lines ih =>
    have hline := hlines line List.mem_cons_self
    cases lines with
    | nil =>
      change splitLines line = _ ∨ splitLines line ++ _ = _
      by_cases h : line = []
      · rw [h]
        exact .inr rfl
      · exact .inl (splitLines_of_unbroken hline h)
    | cons second lines =>
      rw [joinLines_cons (List.cons_ne_nil _ _), splitLines_append_line_feed hline]
      exact (ih fun other hother => hlines other (List.mem_cons_of_mem _ hother)).imp (congrArg (line :: ·))
        (congrArg (line :: ·))

end ComponentDocs.Text

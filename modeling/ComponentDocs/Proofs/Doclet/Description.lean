import ComponentDocs.Proofs.Doclet.Scan
import ComponentDocs.Proofs.Text.Ends

/-!
# Doclets and text of a description

* `splitLines_clean`: the lines of the cleaned text are the kept ones, `filledLines_clean`: it holds the prose lines;
* `parse_congr`, `splitLines_clean_congr`: texts with the same lines have the same doclets, and the same lines when cleaned;
* **`parse_and_clean_by_lines`**: what the doclets and the cleaned text of a description are, line by line;
* `not_isTagLine_of_clean`: a cleaned text has no tag line;
* **`parse_clean_and_clean_clean`**: a cleaned text has no doclets and is clean.
-/

namespace ComponentDocs.Doclet

open Text

/-! ## Texts without tag lines -/

theorem docletsOf_eq_nil_iff {lines : List (List Char)} :
    docletsOf lines = [] ↔ ∀ line ∈ lines, isTagLine line = false := by
  induction lines with
  | nil => exact iff_of_true rfl (by simp)
  | cons line lines ih =>
    rw [docletsOf_cons, List.append_eq_nil_iff, ih, List.forall_mem_cons, Option.toList_eq_nil_iff,
      ← Option.isNone_iff_eq_none, ← Option.isSome_eq_false_iff, docletAt, Option.isSome_map]
    rfl

theorem endsInDoclet_of_not_tag {lines : List (List Char)} (h : ∀ line ∈ lines, isTagLine line = false) :
    endsInDoclet lines = false := by
  rw [endsInDoclet, List.any_eq_false]
  intro line hline
  rw [h line (List.mem_reverse.mp ((List.takeWhile_sublist _).subset hline))]
  decide

/-! ## The cleaned text -/

theorem parse_eq_docletsOf (description : String) :
    parse description = docletsOf (splitLines description.toList) := scan_doclets description.toList

theorem clean_eq (description : String) : clean description = String.ofList (trim
    (if docletsOf (splitLines description.toList) = [] then description.toList
      else joinLines (scan description.toList).kept.reverse)) := by
  have hempty : (scan description.toList).doclets.isEmpty = true ↔
      docletsOf (splitLines description.toList) = [] := by
    rw [← scan_doclets, List.isEmpty_iff, List.reverse_eq_nil_iff]
  simp only [clean, hempty]
  split_ifs <;> rfl

theorem kept_of_not_tag {lines : List (List Char)} (h : ∀ line ∈ lines, isTagLine line = false) :
    (lines.foldl Scan.line Scan.start).kept.reverse = lines := by
  induction lines using List.reverseRecOn with
  | nil => rfl
  | append_singleton lines line ih =>
    have hlines : ∀ other ∈ lines, isTagLine other = false := fun other hother =>
      h other (List.mem_append_left _ hother)
    have hclosed := (follows_foldl lines).isOpen.trans (endsInDoclet_of_not_tag hlines)
    have hkept : ((lines.foldl Scan.line Scan.start).line line).kept = line :: (lines.foldl Scan.line Scan.start).kept := by
      rw [Scan.line_of_not_tag _ (h line (List.mem_append_right _ (List.mem_singleton_self line))), Scan.blank,
        Scan.prose, hclosed]
      split <;> rfl
    rw [List.foldl_append, List.foldl_cons, List.foldl_nil, hkept, List.reverse_cons, ih hlines]

/-- **The lines of a cleaned text are the kept lines** between the blank ones at the ends, trimmed at both ends of the
text. -/
theorem splitLines_clean (description : String) : splitLines (clean description).toList =
    trimEnds (shed (scan description.toList).kept.reverse) := by
  rw [clean_eq, String.toList_ofList, splitLines_trim]
  split_ifs with h
  · rw [scan, kept_of_not_tag (docletsOf_eq_nil_iff.mp h)]
  · have hunbroken : ∀ line ∈ (scan description.toList).kept.reverse, ∀ c ∈ line, isLineBreak c = false := by
      intro line hline c hc
      have hmem := (follows_scan description.toList).mem_of_mem_kept line (List.mem_reverse.mp hline)
      exact (mem_of_mem_splitLines _ line hmem c hc).2
    rw [shed_splitLines_joinLines hunbroken]

/-- **The lines of a cleaned text that are not blank are the prose lines**, trimmed at both ends of the text. -/
theorem filledLines_clean (description : String) :
    filledLines (clean description).toList = trimEnds (proseOf (splitLines description.toList)) := by
  rw [filledLines, splitLines_clean, filled_trimEnds_shed, (follows_scan description.toList).filled_kept]

/-! ## Texts with the same lines -/

section

variable {description other : String} (h : splitLines description.toList = splitLines other.toList)
include h

theorem parse_congr : parse description = parse other := by rw [parse_eq_docletsOf, parse_eq_docletsOf, h]

theorem splitLines_clean_congr : splitLines (clean description).toList = splitLines (clean other).toList := by
  rw [splitLines_clean, splitLines_clean, scan, scan, h]

end

/-! ## Line by line -/

/-- **Doclets and text, line by line.** A tag line is made of blanks, `@`, a word and the end or a blank and a
rest. Every tag line starts a doclet with its word and, between single spaces, its rest and the lines after
it up to a blank line or a tag line. The cleaned text keeps the prose lines. Every line that is not blank
goes to exactly one of these places. -/
theorem parse_and_clean_by_lines (description : String) :
    (∀ line tag value, tagLine? line = some (tag, value) ↔ ∃ rest, TagLine line tag rest ∧ value = trim rest) ∧
    parse description = docletsOf (splitLines description.toList) ∧
    filledLines (clean description).toList = trimEnds (proseOf (splitLines description.toList)) ∧
    ∀ i line, (splitLines description.toList)[i]? = some line → isBlankLine line = false →
      ∃! place, GoesTo (splitLines description.toList) i place := by
  refine ⟨fun line tag value => tagLine?_eq_some_iff, parse_eq_docletsOf description,
    filledLines_clean description, fun i line hline hblank => ?_⟩
  obtain ⟨hi, rfl⟩ := List.getElem?_eq_some_iff.mp hline
  exact existsUnique_place hi hblank

/-! ## Cleaning twice -/

theorem not_isTagLine_of_mem_proseOf {lines : List (List Char)} {line : List Char} (h : line ∈ proseOf lines) :
    isTagLine line = false := by
  obtain ⟨i, -, hi⟩ := List.mem_filterMap.mp h
  obtain ⟨-, hgoes⟩ := Option.filter_eq_some_iff.mp hi
  rw [Bool.and_eq_true] at hgoes
  exact (goesOn_iff.mp hgoes.1).2

theorem not_isTagLine_of_mem_trimEnds {lines : List (List Char)} (h : ∀ line ∈ lines, isTagLine line = false) :
    ∀ line ∈ trimEnds lines, isTagLine line = false := by
  have hlast : ∀ others : List (List Char), (∀ line ∈ others, isTagLine line = false) →
      ∀ line ∈ trimLast others, isTagLine line = false := by
    intro others
    induction others using List.reverseRecOn with
    | nil => exact fun h => h
    | append_singleton others last _ =>
      intro h line hline
      rw [trimLast_concat, List.mem_append, List.mem_singleton] at hline
      rcases hline with hline | rfl
      · exact h line (List.mem_append_left _ hline)
      · rw [← Bool.not_eq_true]
        intro htag
        have := h last (List.mem_append_right _ (List.mem_singleton_self last))
        rw [isTagLine_of_trimEnd htag] at this
        exact absurd this (by decide)
  apply hlast
  cases lines with
  | nil => exact h
  | cons first lines =>
    intro line hline
    rcases List.mem_cons.mp hline with rfl | hline
    · rw [isTagLine_trimStart]
      exact h first (List.mem_cons_self ..)
    · exact h line (List.mem_cons_of_mem _ hline)

/-- **A cleaned text has no tag line.** -/
theorem not_isTagLine_of_clean (description : String) :
    ∀ line ∈ splitLines (clean description).toList, isTagLine line = false := by
  intro line hline
  rw [← Bool.not_eq_true]
  intro htag
  have hfilled : line ∈ filledLines (clean description).toList :=
    mem_filled.mpr ⟨hline, isBlankLine_of_isTagLine htag⟩
  rw [filledLines_clean] at hfilled
  rw [not_isTagLine_of_mem_trimEnds (fun _ => not_isTagLine_of_mem_proseOf) line hfilled] at htag
  exact absurd htag (by decide)

/-- **A cleaned text has no doclets, and cleaning it changes nothing.** -/
theorem parse_clean_and_clean_clean (description : String) :
    parse (clean description) = [] ∧ clean (clean description) = clean description := by
  have hnone : docletsOf (splitLines (clean description).toList) = [] :=
    docletsOf_eq_nil_iff.mpr (not_isTagLine_of_clean description)
  refine ⟨by rw [parse_eq_docletsOf, hnone], ?_⟩
  rw [clean_eq (clean description), if_pos hnone, clean_eq description, String.toList_ofList, trim_trim]

end ComponentDocs.Doclet

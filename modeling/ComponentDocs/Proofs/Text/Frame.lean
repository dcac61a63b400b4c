import ComponentDocs.Proofs.Text.Excerpt

/-!
# Frames around any place

What an excerpt shows for every place and every window.

* `Locates`: a value with a line and a column, `Locates.ofJson?`: it is read as their place;
* `IsHead`, `ShowsLine`, `PointsTo`: the rows of a frame, `IsFrame`: all of them;
* `excerptLines_eq_flatMap`: the rows of numbered lines;
* **`isFrame_excerpt`**: an excerpt is a frame of the lines around its place.
-/

namespace ComponentDocs

/-! ## Places -/

/-- The value or its `start` has a line and a column, which stand for those of the position; an empty column stands for
zero. -/
def Locates (loc : Json) (position : Position) : Prop :=
  ∃ start line column, (Fields.get? loc.fields "start").getD loc = .obj start ∧
    Fields.get? start "line" = some line ∧ line.toInteger = .ok position.line ∧
    Fields.get? start "column" = some column ∧
    if column.isEmptyValue then position.column = 0 else column.toInteger = .ok position.column

variable {loc : Json} {position : Position}

theorem Locates.not_isEmptyValue (h : Locates loc position) : loc.isEmptyValue = false := by
  obtain ⟨start, line, column, hstart, hline, -⟩ := h
  cases loc with
  | obj fields =>
    cases fields with
    | nil =>
      cases hstart
      exact absurd hline (by simp [Fields.get?])
    | cons field fields => rfl
  | _ => exact absurd hstart (by simp [Json.fields, Fields.get?])

theorem Locates.ofJson? (h : Locates loc position) : Position.ofJson? loc = .ok (some position) := by
  have hempty := h.not_isEmptyValue
  obtain ⟨start, line, column, hstart, hline, hlineValue, hcolumn, hcolumnValue⟩ := h
  unfold Position.ofJson? Position.ofFields? Record.filled?
  simp only [hempty, Bool.false_eq_true, if_false, hstart, hline, hlineValue, hcolumn, Option.filter_some]
  split_ifs at hcolumnValue with hzero
  · simp only [hzero, Bool.not_true, Bool.false_eq_true, if_false]
    rw [← hcolumnValue]
    rfl
  · simp only [Bool.eq_false_iff.mpr hzero, Bool.not_false, if_true, hcolumnValue]
    rfl

namespace Text

/-! ## Rows -/

/-- A marker on the line of the place, the number of a line, set to the right, and a bar, in front of the offset. -/
def IsHead (place number offset : ℕ) (head : List Char) : Prop :=
  head.length = offset ∧ ∃ pad, head = (if number = place then '>' else ' ') :: ' ' :: List.replicate pad ' ' ++
    Nat.toDigits 10 number ++ [' ', '|', ' ']

/-- The row shows the head and the text of a line, without blanks at the end. Its first character is the marker. -/
def ShowsLine (lines : List (List Char)) (place offset number : ℕ) (row : List Char) : Prop :=
  row.head? = some (if number = place then '>' else ' ') ∧
    ∃ head line, IsHead place number offset head ∧ lines[number - 1]? = some line ∧ row = trimEnd (head ++ line)

/-- The row has a bar in front of the offset and a pointer at the column behind it, and is blank otherwise. -/
def PointsTo (offset column : ℕ) (row : List Char) : Prop :=
  ∃ margin, margin + 3 = offset ∧
    row = ' ' :: List.replicate margin ' ' ++ ['|', ' '] ++ List.replicate (column - 1) ' ' ++ ['^']

/-- The rows of a frame show the lines from the first to the last one in order, all texts from one offset on. The line of
the place is followed by a pointer to the column if the column is positive. -/
def IsFrame (lines : List (List Char)) (place first last : ℕ) (column : Int) (frame : List Char) : Prop :=
  ∃ (offset : ℕ) (shown : ℕ → List Char) (pointer : List Char),
    splitAt '\n' frame = (List.range' first (last + 1 - first)).flatMap (fun number =>
      shown number :: if number = place ∧ 0 < column then [pointer] else []) ∧
    (∀ number, first ≤ number → number ≤ last → ShowsLine lines place offset number (shown number)) ∧
    PointsTo offset column.toNat pointer

theorem isHead_shownHead {gutter number : ℕ} (h : (Nat.toDigits 10 number).length ≤ gutter) (place : ℕ) :
    IsHead place number (gutter + 5) (shownHead gutter (number == place) number) := by
  refine ⟨?_, gutter - (Nat.toDigits 10 number).length, ?_⟩
  · simp only [shownHead, alignRight, List.length_cons, List.length_append, List.length_replicate, List.length_nil]
    omega
  · simp [shownHead, alignRight]

theorem showsLine_excerptLine {gutter number : ℕ} (h : (Nat.toDigits 10 number).length ≤ gutter) (place : ℕ)
    {lines : List (List Char)} {line : List Char} (hline : lines[number - 1]? = some line) :
    ShowsLine lines place (gutter + 5) number (excerptLine gutter (number == place) number line) := by
  refine ⟨?_, shownHead gutter (number == place) number, line, isHead_shownHead h place, hline, rfl⟩
  rw [head?_excerptLine]
  simp only [beq_iff_eq]

theorem pointsTo_pointerLine (gutter column : ℕ) : PointsTo (gutter + 5) column (pointerLine gutter column) := by
  refine ⟨gutter + 2, by omega, ?_⟩
  have hblanks : List.replicate (gutter + 2) ' ' = ' ' :: (List.replicate gutter ' ' ++ [' ']) := by
    rw [← List.replicate_succ', List.replicate_succ]
  simp only [pointerLine, hblanks, List.append_assoc, List.cons_append, List.nil_append]

/-! ## Numbered lines -/

theorem excerptLines_eq_flatMap (gutter place : ℕ) (column : Int) (text : ℕ → List Char) {first : ℕ}
    {lines : List (List Char)} (h : ∀ i < lines.length, lines[i]? = some (text (first + i))) :
    excerptLines gutter place column first lines = (List.range' first lines.length).flatMap fun number =>
      excerptLine gutter (number == place) number (text number) ::
        if number = place ∧ 0 < column then [pointerLine gutter column.toNat] else [] := by
  induction lines generalizing first with
  | nil => rfl
  | cons line lines ih =>
    have hline : line = text first := Option.some.inj (h 0 (by simp))
    have hrest : ∀ i < lines.length, lines[i]? = some (text (first + 1 + i)) := by
      intro i hi
      have hnext := h (i + 1) (by simpa using hi)
      rwa [List.getElem?_cons_succ, Nat.add_comm i, ← Nat.add_assoc] at hnext
    rw [excerptLines, ih hrest, hline, List.length_cons, List.range'_succ, List.flatMap_cons, List.cons_append]

theorem isFrame_shown {lines : List (List Char)} {first last : ℕ} (place : ℕ) (column : Int)
    (hbreaks : ∀ line ∈ lines, '\n' ∉ line) (hfirst : 1 ≤ first) (hle : first ≤ last) (hlast : last ≤ lines.length) :
    IsFrame lines place first last column (joinLines (excerptLines (Nat.toDigits 10 last).length place column first
      ((lines.drop (first - 1)).take (last + 1 - first)))) := by
  have hlength : ((lines.drop (first - 1)).take (last + 1 - first)).length = last + 1 - first := by
    rw [List.length_take, List.length_drop]
    omega
  have htext : ∀ i < ((lines.drop (first - 1)).take (last + 1 - first)).length,
      ((lines.drop (first - 1)).take (last + 1 - first))[i]? = some ((lines[first + i - 1]?).getD []) := by
    intro i hi
    rw [hlength] at hi
    rw [List.getElem?_take_of_lt hi, List.getElem?_drop, show first - 1 + i = first + i - 1 by omega,
      List.getElem?_eq_getElem (by omega), Option.getD_some]
  have hrows := excerptLines_eq_flatMap (Nat.toDigits 10 last).length place column
    (fun number => (lines[number - 1]?).getD []) htext
  have hfeeds : ∀ row ∈ excerptLines (Nat.toDigits 10 last).length place column first
      ((lines.drop (first - 1)).take (last + 1 - first)), '\n' ∉ row :=
    line_feed_notMem_of_mem_excerptLines _ _ _
      fun line hline => hbreaks line (List.mem_of_mem_drop (List.mem_of_mem_take hline))
  rw [hlength] at hrows
  refine ⟨(Nat.toDigits 10 last).length + 5, _, _, (splitAt_join ?_ hfeeds).trans hrows, fun number hmin hmax => ?_,
    pointsTo_pointerLine _ _⟩
  · rw [hrows, show last + 1 - first = last - first + 1 by omega, List.range'_succ, List.flatMap_cons, List.cons_append]
    exact List.cons_ne_nil _ _
  · refine showsLine_excerptLine (length_toDigits_mono hmax) place ?_
    rw [List.getElem?_eq_getElem (by omega), Option.getD_some]

/-! ## Excerpts -/

/-- **An excerpt is a frame of the lines around its place**: with the line of the place moved into the text, the lines
from so many above it to so many below it, as far as the text goes. -/
theorem isFrame_excerpt {source : String} {window : Window} (hloc : Locates loc position)
    (hlines : splitLines source.toList ≠ []) (habove : 0 ≤ window.above) (hbelow : 0 ≤ window.below) :
    ∃ place first last : ℕ, Position.ofJson? loc = .ok (some position) ∧
      (place : Int) = min (max position.line 1) (splitLines source.toList).length ∧
      (first : Int) = max (place - window.above) 1 ∧
      (last : Int) = min (place + window.below) (splitLines source.toList).length ∧
      first ≤ place ∧ place ≤ last ∧
      IsFrame (splitLines source.toList) place first last position.column
        (excerpt source (some position) window).toList := by
  have hbreaks : ∀ line ∈ splitLines source.toList, '\n' ∉ line := fun line hline hmem =>
    absurd (mem_of_mem_splitLines _ line hline _ hmem).2 (by decide)
  have hlength := List.length_pos_iff.mpr hlines
  unfold excerpt
  dsimp only
  generalize splitLines source.toList = lines at hbreaks hlines hlength ⊢
  rw [if_neg (by simpa using hlines), String.toList_ofList]
  have hplace : (clampLine lines.length position.line : Int) = min (max position.line 1) lines.length := by
    unfold clampLine
    omega
  refine ⟨clampLine lines.length position.line, _, _, hloc.ofJson?, hplace, ?_, ?_, ?_, ?_,
    isFrame_shown _ position.column hbreaks ?_ ?_ ?_⟩
  all_goals omega

/-- Ten lines, among them a blank one and one with blanks at its end. -/
def tenLines : String := "1\n2\n3\n4\n5\n6\n7\n \nx  \né = ;\n"

/-- A place behind the text moves to its last line. The numbers are set to the right, and blanks at the end are left
out. -/
theorem isFrame_tenLines :
    Locates (.obj [("start", .obj [("line", .int 12), ("column", .str "5")])]) ⟨12, 5⟩ ∧
    splitLines tenLines.toList ≠ [] ∧ 0 ≤ Window.standard.above ∧ 0 ≤ Window.standard.below ∧
    excerpt tenLines (some ⟨12, 5⟩) .standard = "   8 |\n   9 | x\n> 10 | é = ;\n     |     ^" ∧
    IsFrame (splitLines tenLines.toList) 10 8 10 5 (excerpt tenLines (some ⟨12, 5⟩) .standard).toList := by
  have hloc : Locates (.obj [("start", .obj [("line", .int 12), ("column", .str "5")])]) ⟨12, 5⟩ :=
    ⟨_, _, _, rfl, rfl, rfl, rfl, by decide +kernel⟩
  have hlength : (splitLines tenLines.toList).length = 10 := by decide +kernel
  have hlines : splitLines tenLines.toList ≠ [] := List.length_pos_iff.mp (by omega)
  obtain ⟨place, first, last, -, hplace, hfirst, hlast, -, -, hframe⟩ :=
    @isFrame_excerpt _ _ tenLines .standard hloc hlines (by decide) (by decide)
  rw [hlength] at hplace hlast
  simp only [Window.standard] at hplace hfirst hlast
  obtain rfl : place = 10 := by omega
  obtain rfl : first = 8 := by omega
  obtain rfl : last = 10 := by omega
  exact ⟨hloc, hlines, by decide, by decide, by decide +kernel, hframe⟩

end Text

end ComponentDocs

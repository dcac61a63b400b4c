import ComponentDocs.Proofs.Text.Lines

/-!
# The ends of a text

Trimming a text drops the blank lines at its ends, and trims the start of the first line that is left and the end of the
last one.

* `shed`: lines without the blank ones at the ends; `trimEnds`: the start of the first line and the end of the last one
  trimmed;
* **`splitLines_trim`**: the lines of a trimmed text;
* `shed_splitLines_joinLines`: joining lines loses none of those that are left;
* `filled_trimEnds_shed`: the lines that are not blank stay;
* `map_isBlankLine_trimEnds`: trimming the ends leaves blank lines blank, and no others;
* `exists_trimEnds_shed`: what stands between two lines that are not blank stays as it is.
-/

namespace ComponentDocs.Text

/-! ## Blank lines at the ends -/

/-- The lines from the first one that is not blank on. -/
def shedStart (lines : List (List Char)) : List (List Char) := lines.dropWhile isBlankLine

/-- The lines up to the last one that is not blank. -/
def shedEnd (lines : List (List Char)) : List (List Char) := lines.rdropWhile isBlankLine

/-- The lines without the blank ones at both ends. -/
def shed (lines : List (List Char)) : List (List Char) := shedEnd (shedStart lines)

theorem shedStart_cons_of_blank {line : List Char} (h : isBlankLine line = true) (lines : List (List Char)) :
    shedStart (line :: lines) = shedStart lines := List.dropWhile_cons_of_pos h

theorem shedStart_cons_of_not_blank {line : List Char} (h : isBlankLine line = false) (lines : List (List Char)) :
    shedStart (line :: lines) = line :: lines := List.dropWhile_cons_of_neg (by rw [h]; decide)

theorem shedEnd_concat_of_blank {line : List Char} (h : isBlankLine line = true) (lines : List (List Char)) :
    shedEnd (lines ++ [line]) = shedEnd lines := List.rdropWhile_concat_pos _ _ _ h

theorem shedEnd_concat_of_not_blank {line : List Char} (h : isBlankLine line = false) (lines : List (List Char)) :
    shedEnd (lines ++ [line]) = lines ++ [line] := List.rdropWhile_concat_neg _ _ _ (by rw [h]; decide)

theorem shedEnd_append_of_blank (lines : List (List Char)) {more : List (List Char)}
    (h : ∀ line ∈ more, isBlankLine line = true) : shedEnd (lines ++ more) = shedEnd lines := by
  induction more using List.reverseRecOn with
  | nil => rw [List.append_nil]
  | append_singleton more line ih =>
    rw [← List.append_assoc, shedEnd_concat_of_blank (h line (by simp))]
    exact ih fun other hother => h other (List.mem_append_left _ hother)

theorem filled_shedStart (lines : List (List Char)) : filled (shedStart lines) = filled lines := by
  induction lines with
  | nil => rfl
  | cons line lines ih =>
    cases h : isBlankLine line with
    | true => rw [shedStart_cons_of_blank h, ih, filled_cons_of_blank h]
    | false => rw [shedStart_cons_of_not_blank h]

/-! ## Trimmed lines -/

/-- The lines with the end of the last one trimmed. -/
def trimLast : List (List Char) → List (List Char)
  | [] => []
  | [line] => [trimEnd line]
  | line :: next :: rest => line :: trimLast (next :: rest)

/-- The lines with the start of the first one and the end of the last one trimmed. -/
def trimEnds (lines : List (List Char)) : List (List Char) := trimLast (lines.modifyHead trimStart)

theorem trimLast_concat (lines : List (List Char)) (line : List Char) :
    trimLast (lines ++ [line]) = lines ++ [trimEnd line] := by
  induction lines with
  | nil => rfl
  | cons first lines ih =>
    cases lines with
    | nil => rfl
    | cons second lines => exact congrArg (first :: ·) ih

/-- The start of a text belongs to the first line that is not blank. -/
theorem splitLines_trimStart (cs : List Char) :
    splitLines (trimStart cs) = (shedStart (splitLines cs)).modifyHead trimStart := by
  fun_induction splitLines cs with
  | case1 => rfl
  | case2 rest ih =>
    rw [trimStart_cons, if_pos (by decide), trimStart_cons, if_pos (by decide), ih,
      shedStart_cons_of_blank isBlankLine_nil]
  | case3 c rest _ hc ih =>
    rw [trimStart_cons, if_pos (isBlank_of_isLineBreak hc), ih, shedStart_cons_of_blank isBlankLine_nil]
  | case4 c rest _ hc ih =>
    have hfirst : ∃ line lines, consLine c (splitLines rest) = (c :: line) :: lines := by
      cases splitLines rest with
      | nil => exact ⟨[], [], rfl⟩
      | cons line lines => exact ⟨line, lines, rfl⟩
    rw [trimStart_cons]
    split_ifs with hblank
    · rw [ih]
      cases splitLines rest with
      | nil => exact (congrArg _ (shedStart_cons_of_blank (by rw [isBlankLine_cons, hblank]; rfl) [])).symm
      | cons line lines =>
        have hline : isBlankLine (c :: line) = isBlankLine line := by rw [isBlankLine_cons, hblank, Bool.true_and]
        rw [consLine]
        cases h : isBlankLine line with
        | true => rw [shedStart_cons_of_blank h, shedStart_cons_of_blank (hline.trans h)]
        | false =>
          rw [shedStart_cons_of_not_blank h, shedStart_cons_of_not_blank (hline.trans h), List.modifyHead_cons,
            List.modifyHead_cons, trimStart_cons, if_pos hblank]
    · obtain ⟨line, lines, hfirst⟩ := hfirst
      rw [splitLines_of_not_break (Bool.eq_false_iff.mpr hc), hfirst,
        shedStart_cons_of_not_blank (by rw [isBlankLine_cons, Bool.eq_false_iff.mpr hblank, Bool.false_and]),
        List.modifyHead_cons, trimStart_cons, if_neg hblank]

/-- Blanks after a text that ends with another character go to its last line or after it. -/
theorem splitLines_append_of_blank {cs ws : List Char} (hws : isBlankLine ws = true) (hne : cs ≠ [])
    (hend : trimEnd cs = cs) :
    ∃ front last w more, splitLines cs = front ++ [last] ∧ trimEnd last = last ∧ last ≠ [] ∧
      splitLines (cs ++ ws) = front ++ (last ++ w) :: more ∧ isBlankLine w = true ∧
      ∀ line ∈ more, isBlankLine line = true := by
  fun_induction splitLines cs with
  | case1 => exact absurd rfl hne
  | case2 rest ih =>
    have hrest : rest ≠ [] := by
      rintro rfl
      exact absurd hend (by decide)
    obtain ⟨front, last, w, more, hcs, hlast, hnil, happ, hw, hmore⟩ :=
      ih hrest (trimEnd_tail (trimEnd_tail hend))
    refine ⟨[] :: front, last, w, more, by rw [hcs]; rfl, hlast, hnil, ?_, hw, hmore⟩
    rw [List.cons_append, List.cons_append, splitLines, happ]
    rfl
  | case3 c rest hcrlf hc ih =>
    have hrest : rest ≠ [] := by
      rintro rfl
      rw [trimEnd_singleton_iff, isBlank_of_isLineBreak hc] at hend
      exact absurd hend (by decide)
    obtain ⟨front, last, w, more, hcs, hlast, hnil, happ, hw, hmore⟩ := ih hrest (trimEnd_tail hend)
    refine ⟨[] :: front, last, w, more, by rw [hcs]; rfl, hlast, hnil, ?_, hw, hmore⟩
    obtain ⟨d, rest, rfl⟩ := List.exists_cons_of_ne_nil hrest
    rw [List.cons_append, splitLines, if_pos hc, happ]
    · rfl
    · rintro others rfl h
      exact hcrlf rest rfl (by rw [(List.cons.inj h).1])
  | case4 c rest hcrlf hc ih =>
    rw [List.cons_append, splitLines_of_not_break (Bool.eq_false_iff.mpr hc)]
    by_cases hrest : rest = []
    · subst hrest
      refine ⟨[], [c], ?_⟩
      have hblank : ∀ line ∈ splitLines ws, isBlankLine line = true := fun line =>
        isBlankLine_of_mem_splitLines hws
      cases hlines : splitLines ws with
      | nil => exact ⟨[], [], rfl, hend, List.cons_ne_nil _ _, by rw [List.nil_append, hlines]; rfl, rfl,
        by simp⟩
      | cons line lines =>
        rw [hlines] at hblank
        exact ⟨line, lines, rfl, hend, List.cons_ne_nil _ _, by rw [List.nil_append, hlines]; rfl,
          hblank line (List.mem_cons_self ..), fun other hother => hblank other (List.mem_cons_of_mem _ hother)⟩
    · obtain ⟨front, last, w, more, hcs, hlast, hnil, happ, hw, hmore⟩ := ih hrest (trimEnd_tail hend)
      rw [hcs, happ]
      cases front with
      | nil =>
        refine ⟨[], c :: last, w, more, rfl, ?_, List.cons_ne_nil _ _, rfl, hw, hmore⟩
        rw [trimEnd_cons, isBlankLine_cons, isBlankLine_eq_false_of_trimEnd hlast hnil, Bool.and_false,
          if_neg (by decide), hlast]
      | cons line front => exact ⟨(c :: line) :: front, last, w, more, rfl, hlast, hnil, rfl, hw, hmore⟩

/-- The end of a text belongs to the last line that is not blank. -/
theorem splitLines_trimEnd (cs : List Char) : splitLines (trimEnd cs) = trimLast (shedEnd (splitLines cs)) := by
  by_cases hcs : isBlankLine cs = true
  · have hlines := @shedEnd_append_of_blank [] (splitLines cs) fun _ => isBlankLine_of_mem_splitLines hcs
    rw [List.nil_append] at hlines
    rw [trimEnd_eq_nil_iff.mpr hcs, hlines]
    rfl
  · obtain ⟨ws, hws, heq⟩ := exists_eq_trimEnd_append cs
    obtain ⟨front, last, w, more, hlines, hlast, hnil, happ, hw, hmore⟩ :=
      splitLines_append_of_blank hws (fun h => hcs (trimEnd_eq_nil_iff.mp h)) (trimEnd_trimEnd cs)
    have hlast' : isBlankLine (last ++ w) = false := by
      rw [isBlankLine_append, isBlankLine_eq_false_of_trimEnd hlast hnil, Bool.false_and]
    rw [← heq, ← List.singleton_append, ← List.append_assoc] at happ
    rw [hlines, happ, shedEnd_append_of_blank _ hmore, shedEnd_concat_of_not_blank hlast', trimLast_concat,
      trimEnd_append_of_blank last hw, hlast]

theorem shedEnd_modifyHead_trimStart (lines : List (List Char)) :
    shedEnd (lines.modifyHead trimStart) = (shedEnd lines).modifyHead trimStart := by
  induction lines using List.reverseRecOn with
  | nil => rfl
  | append_singleton lines line ih =>
    cases lines with
    | nil =>
      cases h : isBlankLine line with
      | true =>
        have h' : isBlankLine (trimStart line) = true := (isBlankLine_trimStart line).trans h
        rw [shedEnd_concat_of_blank h]
        exact shedEnd_concat_of_blank h' []
      | false =>
        have h' : isBlankLine (trimStart line) = false := (isBlankLine_trimStart line).trans h
        rw [shedEnd_concat_of_not_blank h]
        exact shedEnd_concat_of_not_blank h' []
    | cons first lines =>
      rw [List.cons_append, List.modifyHead_cons, ← List.cons_append, ← List.cons_append]
      cases h : isBlankLine line with
      | true => rw [shedEnd_concat_of_blank h, shedEnd_concat_of_blank h, ← ih]; rfl
      | false => rw [shedEnd_concat_of_not_blank h, shedEnd_concat_of_not_blank h]; rfl

/-- **The lines of a trimmed text**: those of the text between its blank ends, trimmed at the ends. -/
theorem splitLines_trim (cs : List Char) : splitLines (trim cs) = trimEnds (shed (splitLines cs)) := by
  rw [trim, splitLines_trimEnd, splitLines_trimStart, shedEnd_modifyHead_trimStart]
  rfl

/-! ## What the ends keep -/

theorem shedStart_append_cons {line : List Char} (h : isBlankLine line = false) (front back : List (List Char)) :
    shedStart (front ++ line :: back) = shedStart front ++ line :: back := by
  induction front with
  | nil => exact shedStart_cons_of_not_blank h back
  | cons first front ih =>
    rw [List.cons_append]
    cases hfirst : isBlankLine first with
    | true => rw [shedStart_cons_of_blank hfirst, shedStart_cons_of_blank hfirst, ih]
    | false => rw [shedStart_cons_of_not_blank hfirst, shedStart_cons_of_not_blank hfirst, List.cons_append]

theorem shedEnd_append_cons {line : List Char} (h : isBlankLine line = false) (front back : List (List Char)) :
    shedEnd (front ++ line :: back) = front ++ line :: shedEnd back := by
  induction back using List.reverseRecOn with
  | nil => exact shedEnd_concat_of_not_blank h front
  | append_singleton back last ih =>
    rw [← List.cons_append, ← List.append_assoc]
    cases hlast : isBlankLine last with
    | true => rw [shedEnd_concat_of_blank hlast, shedEnd_concat_of_blank hlast, ih]
    | false =>
      rw [shedEnd_concat_of_not_blank hlast, shedEnd_concat_of_not_blank hlast, List.append_assoc]
      rfl

theorem shed_append_of_blank (lines : List (List Char)) {more : List (List Char)}
    (h : ∀ line ∈ more, isBlankLine line = true) : shed (lines ++ more) = shed lines := by
  induction lines with
  | nil =>
    have hmore : shedStart more = [] := List.dropWhile_eq_nil_iff.mpr h
    rw [List.nil_append, shed, hmore]
    rfl
  | cons line lines ih =>
    rw [shed, shed, List.cons_append]
    cases hline : isBlankLine line with
    | true => rw [shedStart_cons_of_blank hline, shedStart_cons_of_blank hline]; exact ih
    | false =>
      rw [shedStart_cons_of_not_blank hline, shedStart_cons_of_not_blank hline, ← List.cons_append,
        shedEnd_append_of_blank _ h]

/-- Joining lines loses none of those between the blank ends. -/
theorem shed_splitLines_joinLines {lines : List (List Char)}
    (hlines : ∀ line ∈ lines, ∀ c ∈ line, isLineBreak c = false) : shed (splitLines (joinLines lines)) = shed lines := by
  rcases splitLines_joinLines hlines with h | h
  · rw [h]
  · conv_rhs => rw [← h]
    exact (shed_append_of_blank _ (by simp)).symm

theorem filled_shedStart_trimStart (lines : List (List Char)) :
    filled ((shedStart lines).modifyHead trimStart) = (filled lines).modifyHead trimStart := by
  induction lines with
  | nil => rfl
  | cons line lines ih =>
    cases h : isBlankLine line with
    | true => rw [shedStart_cons_of_blank h, ih, filled_cons_of_blank h]
    | false => rw [shedStart_cons_of_not_blank h, List.modifyHead_cons, filled_cons_of_not_blank h, List.modifyHead_cons,
        filled_cons_of_not_blank ((isBlankLine_trimStart line).trans h)]

theorem filled_trimLast_shedEnd (lines : List (List Char)) :
    filled (trimLast (shedEnd lines)) = trimLast (filled lines) := by
  induction lines using List.reverseRecOn with
  | nil => rfl
  | append_singleton lines line ih =>
    rw [filled_append]
    cases h : isBlankLine line with
    | true => rw [shedEnd_concat_of_blank h, ih, filled_cons_of_blank h]; exact congrArg trimLast (List.append_nil _).symm
    | false =>
      rw [shedEnd_concat_of_not_blank h, trimLast_concat, filled_append, filled_cons_of_not_blank h,
        filled_cons_of_not_blank ((isBlankLine_trimEnd line).trans h)]
      exact (trimLast_concat _ _).symm

/-- **The lines that are not blank stay**, trimmed at the ends. -/
theorem filled_trimEnds_shed (lines : List (List Char)) :
    filled (trimEnds (shed lines)) = trimEnds (filled lines) := by
  rw [trimEnds, shed, ← shedEnd_modifyHead_trimStart, filled_trimLast_shedEnd, filled_shedStart_trimStart]
  rfl

theorem map_isBlankLine_trimEnds (lines : List (List Char)) :
    (trimEnds lines).map isBlankLine = lines.map isBlankLine := by
  have hstart : (lines.modifyHead trimStart).map isBlankLine = lines.map isBlankLine := by
    cases lines with
    | nil => rfl
    | cons first lines => rw [List.modifyHead_cons, List.map_cons, List.map_cons, isBlankLine_trimStart]
  rw [trimEnds, ← hstart]
  induction lines.modifyHead trimStart using List.reverseRecOn with
  | nil => rfl
  | append_singleton lines line _ =>
    rw [trimLast_concat, List.map_append, List.map_append, List.map_singleton, List.map_singleton, isBlankLine_trimEnd]

theorem length_filled (lines : List (List Char)) : (filled lines).length = (lines.map isBlankLine).count false := by
  rw [filled, ← List.countP_eq_length_filter, List.count, List.countP_map]
  congr 1
  funext line
  cases h : isBlankLine line <;> simp [h]

theorem exists_modifyHead_trimStart (front : List (List Char)) (line : List Char) (back : List (List Char)) :
    ∃ front' line', (front ++ line :: back).modifyHead trimStart = front' ++ line' :: back ∧
      front'.map isBlankLine = front.map isBlankLine ∧ trim line' = trim line := by
  cases front with
  | nil => exact ⟨[], trimStart line, rfl, rfl, trim_trimStart line⟩
  | cons first front =>
    refine ⟨trimStart first :: front, line, rfl, ?_, rfl⟩
    rw [List.map_cons, List.map_cons, isBlankLine_trimStart]

theorem exists_trimLast (front : List (List Char)) (line : List Char) (back : List (List Char)) :
    ∃ line' back', trimLast (front ++ line :: back) = front ++ line' :: back' ∧ trim line' = trim line := by
  rcases List.eq_nil_or_concat back with rfl | ⟨back, last, rfl⟩
  · exact ⟨trimEnd line, [], trimLast_concat front line, trim_trimEnd line⟩
  · refine ⟨line, back ++ [trimEnd last], ?_, rfl⟩
    rw [List.concat_eq_append, ← List.cons_append, ← List.append_assoc, trimLast_concat, List.append_assoc]
    rfl

/-- **What stands between two lines that are not blank stays as it is**, and the two keep their places among the lines
that are not blank. -/
theorem exists_trimEnds_shed {p q : List Char} (hp : isBlankLine p = false) (hq : isBlankLine q = false)
    (front mid back : List (List Char)) : ∃ front' p' q' back',
      trimEnds (shed (front ++ p :: (mid ++ q :: back))) = front' ++ p' :: (mid ++ q' :: back') ∧
      (filled front').length = (filled front).length ∧ trim p' = trim p ∧ trim q' = trim q := by
  have hshed : shed (front ++ p :: (mid ++ q :: back)) = shedStart front ++ p :: (mid ++ q :: shedEnd back) := by
    rw [shed, shedStart_append_cons hp, ← List.cons_append, ← List.append_assoc, shedEnd_append_cons hq,
      List.append_assoc]
    rfl
  obtain ⟨front', p', hstart, hfront, hp'⟩ := exists_modifyHead_trimStart (shedStart front) p (mid ++ q :: shedEnd back)
  obtain ⟨q', back', hlast, hq'⟩ := exists_trimLast (front' ++ p' :: mid) q (shedEnd back)
  refine ⟨front', p', q', back', ?_, ?_, hp', hq'⟩
  · rw [hshed, trimEnds, hstart, ← List.cons_append, ← List.append_assoc, hlast, List.append_assoc]
    rfl
  · rw [length_filled, hfront, ← length_filled, filled_shedStart]

end ComponentDocs.Text

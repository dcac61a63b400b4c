import ComponentDocs.Proofs.Doclet.Description
import ComponentDocs.Proofs.Lists

/-!
# Doclets written out

Doclets that are written under a text, one line each, are found again, and the text is what is left.

* `Doclet.toLine`, `Doclet.Writable`: the line of a doclet, and the doclets that a line can hold;
* `docletsOf_append_of_stop`, `docletsOf_append_of_blank`: a blank line or a tag line sets doclets apart;
* `docletsOf_map_toLine`, `kept_append_of_tag`: lines of doclets hold these doclets and keep nothing;
* **`parse_written_and_parse_append`**: doclets written under a text are read back, and the doclets of two texts with a
  blank line between them are those of the texts.
-/

namespace ComponentDocs.Doclet

open Text

/-! ## Lines of doclets -/

/-- The doclet as a line: `@tag value`, or `@tag` if the value is empty. -/
def toLine (doclet : Doclet) : List Char :=
  '@' :: (doclet.tag.toList ++ if doclet.value = "" then [] else ' ' :: doclet.value.toList)

/-- The doclet fits on a line: the tag is a word, and the value is trimmed and has no line breaks. -/
structure Writable (doclet : Doclet) : Prop where
  tag_ne : doclet.tag ≠ ""
  isWord : ∀ c ∈ doclet.tag.toList, isWord c = true
  trimmed : trimString doclet.value = doclet.value
  unbroken : ∀ c ∈ doclet.value.toList, isLineBreak c = false

/-- The text and under it the doclets, one line each. -/
def written (text : String) (doclets : List Doclet) : String :=
  text ++ "\n" ++ String.ofList (joinLines (doclets.map toLine))

section

variable {doclet : Doclet}

theorem Writable.trim_value (h : doclet.Writable) : trim doclet.value.toList = doclet.value.toList := by
  have := congrArg String.toList h.trimmed
  rwa [trimString, String.toList_ofList] at this

theorem tagLine?_of_value {tag value : List Char} (hne : tag ≠ []) (hword : ∀ c ∈ tag, isWord c = true)
    (htrim : trim value = value) : tagLine? ('@' :: (tag ++ ' ' :: value)) = some (tag, value) := by
  have hline : TagLine ('@' :: (tag ++ ' ' :: value)) tag (' ' :: value) :=
    ⟨[], rfl, rfl, hne, hword, fun c hc => by rw [← Option.some.inj hc]; decide⟩
  rw [tagLine?_of_tagLine hline, trim, trimStart_cons, if_pos (by decide)]
  exact congrArg (fun value => some (tag, value)) htrim

theorem Writable.tagLine? (h : doclet.Writable) :
    tagLine? doclet.toLine = some (doclet.tag.toList, doclet.value.toList) := by
  have hne : doclet.tag.toList ≠ [] := fun hnil => h.tag_ne (String.toList_eq_nil_iff.mp hnil)
  by_cases hvalue : doclet.value = ""
  · have hline : TagLine doclet.toLine doclet.tag.toList [] :=
      ⟨[], rfl, by rw [toLine, if_pos hvalue]; rfl, hne, h.isWord, by simp⟩
    rw [tagLine?_of_tagLine hline, hvalue]
    rfl
  · rw [toLine, if_neg hvalue]
    exact tagLine?_of_value hne h.isWord h.trim_value

theorem Writable.isTagLine (h : doclet.Writable) : isTagLine doclet.toLine = true := by
  rw [Doclet.isTagLine, h.tagLine?]
  rfl

theorem Writable.toLine_unbroken (h : doclet.Writable) : ∀ c ∈ doclet.toLine, isLineBreak c = false := by
  have hword : ∀ c ∈ doclet.tag.toList, isLineBreak c = false := by
    intro c hc
    rw [← Bool.not_eq_true]
    intro hbreak
    have := h.isWord c hc
    rw [isWord_of_isBlank (isBlank_of_isLineBreak hbreak)] at this
    exact absurd this (by decide)
  rw [toLine, List.forall_mem_cons, List.forall_mem_append]
  refine ⟨by decide, hword, ?_⟩
  split_ifs
  · simp
  · exact List.forall_mem_cons.mpr ⟨by decide, h.unbroken⟩

end

/-! ## Doclets of lines put together -/

section

variable {lines others : List (List Char)}

theorem docletsOf_append_of_not_tag (h : ∀ line ∈ lines, isTagLine line = false) :
    docletsOf (lines ++ others) = docletsOf others := by
  induction lines with
  | nil => rfl
  | cons line lines ih =>
    rw [List.cons_append, docletsOf_cons_of_not_tag (h line List.mem_cons_self)]
    exact ih fun other hother => h other (List.mem_cons_of_mem _ hother)

/-- A line that does not go on a doclet sets doclets apart. -/
theorem docletsOf_append_of_stop {line : List Char} (h : goesOn line = false) (lines others : List (List Char)) :
    docletsOf (lines ++ line :: others) = docletsOf lines ++ docletsOf (line :: others) := by
  induction lines with
  | nil => rfl
  | cons first lines ih =>
    have hfirst : docletAt (first :: (lines ++ line :: others)) 0 = docletAt (first :: lines) 0 := by
      rw [docletAt_cons_zero, docletAt_cons_zero, takeWhile_append_of_stop h]
    rw [List.cons_append, docletsOf_cons, hfirst, ih, docletsOf_cons first lines, List.append_assoc]

/-- **A blank line sets doclets apart.** -/
theorem docletsOf_append_of_blank {line : List Char} (h : isBlankLine line = true) (lines others : List (List Char)) :
    docletsOf (lines ++ line :: others) = docletsOf lines ++ docletsOf others := by
  have hstop : goesOn line = false := by rw [goesOn, h, Bool.not_true, Bool.false_and]
  rw [docletsOf_append_of_stop hstop, docletsOf_cons_of_not_tag (not_isTagLine_of_isBlankLine h)]

/-- **Lines of doclets hold these doclets.** -/
theorem docletsOf_map_toLine {doclets : List Doclet} (h : ∀ doclet ∈ doclets, doclet.Writable) :
    docletsOf (doclets.map toLine) = doclets := by
  induction doclets with
  | nil => rfl
  | cons doclet doclets ih =>
    obtain ⟨hdoclet, hdoclets⟩ := List.forall_mem_cons.mp h
    have hstop : (doclets.map toLine).takeWhile goesOn = [] := by
      cases doclets with
      | nil => rfl
      | cons next doclets =>
        refine List.takeWhile_cons_of_neg ?_
        rw [goesOn_iff, (hdoclets next List.mem_cons_self).isTagLine]
        simp
    have hfirst : docletAt (doclet.toLine :: doclets.map toLine) 0 = some doclet := by
      rw [docletAt_cons_zero, hdoclet.tagLine?, hstop, Option.map_some, List.map_nil, spaced_singleton,
        String.ofList_toList, String.ofList_toList]
    rw [List.map_cons, docletsOf_cons, hfirst, ih hdoclets]
    rfl

/-- Tag lines keep nothing. -/
theorem kept_append_of_tag (lines : List (List Char)) {tags : List (List Char)}
    (h : ∀ line ∈ tags, isTagLine line = true) : (scanned (lines ++ tags)).kept = (scanned lines).kept := by
  induction tags using List.reverseRecOn with
  | nil => rw [List.append_nil]
  | append_singleton tags line ih =>
    rw [← List.append_assoc, scanned_concat, Scan.line_kept_of_tag _ (h line (by simp))]
    exact ih fun other hother => h other (List.mem_append_left _ hother)

/-! ## Writing and reading -/

theorem exists_splitLines_written (text : String) {doclets : List Doclet} (h : ∀ doclet ∈ doclets, doclet.Writable) :
    ∃ gap, (gap = [] ∨ gap = [[]]) ∧
      splitLines (written text doclets).toList = splitLines text.toList ++ gap ++ doclets.map toLine := by
  have hlines : splitLines (joinLines (doclets.map toLine)) = doclets.map toLine := by
    refine (splitLines_joinLines ?_).resolve_right fun hempty => ?_
    · exact List.forall_mem_map.mpr fun doclet hdoclet => (h doclet hdoclet).toLine_unbroken
    · have hmem : [] ∈ doclets.map toLine := by rw [← hempty]; simp
      obtain ⟨doclet, -, hnil⟩ := List.mem_map.mp hmem
      exact absurd hnil (List.cons_ne_nil _ _)
  obtain ⟨gap, hgap, hsplit⟩ := exists_splitLines_append text.toList (joinLines (doclets.map toLine))
  refine ⟨gap, hgap, ?_⟩
  rw [hlines] at hsplit
  have hfeed : "\n".toList = ['\n'] := rfl
  rw [← hsplit, written, String.toList_append, String.toList_append, hfeed, String.toList_ofList, List.append_assoc]
  rfl

/-- **Doclets written under a text without tag lines are read back, and the text is what is left.** -/
theorem parse_written {text : String} (htext : ∀ line ∈ splitLines text.toList, isTagLine line = false)
    {doclets : List Doclet} (h : ∀ doclet ∈ doclets, doclet.Writable) :
    parse (written text doclets) = doclets ∧
      splitLines (clean (written text doclets)).toList = splitLines (trimString text).toList := by
  obtain ⟨gap, hgap, hlines⟩ := exists_splitLines_written text h
  have hblank : ∀ line ∈ gap, isBlankLine line = true := by rcases hgap with rfl | rfl <;> simp
  have hprose : ∀ line ∈ splitLines text.toList ++ gap, isTagLine line = false := List.forall_mem_append.mpr
    ⟨htext, fun line hline => not_isTagLine_of_isBlankLine (hblank line hline)⟩
  constructor
  · rw [parse_eq_docletsOf, hlines, docletsOf_append_of_not_tag hprose, docletsOf_map_toLine h]
  · have htags : ∀ line ∈ doclets.map toLine, isTagLine line = true :=
      List.forall_mem_map.mpr fun doclet hdoclet => (h doclet hdoclet).isTagLine
    have hkept : (scan (written text doclets).toList).kept.reverse = splitLines text.toList ++ gap := by
      rw [scan, hlines, kept_append_of_tag _ htags, kept_of_not_tag hprose]
    rw [splitLines_clean, hkept, shed_append_of_blank _ hblank, trimString, String.toList_ofList, splitLines_trim]

/-- **The doclets of two texts with a blank line between them** are those of the texts. -/
theorem parse_append (a b : String) : parse (a ++ "\n\n" ++ b) = parse a ++ parse b := by
  have htext : (a ++ "\n\n" ++ b).toList = a.toList ++ '\n' :: '\n' :: b.toList := by
    rw [String.toList_append, String.toList_append, List.append_assoc]
    rfl
  obtain ⟨gap, hgap, hlines⟩ := exists_splitLines_append a.toList ('\n' :: b.toList)
  rw [parse_eq_docletsOf, htext, hlines, splitLines_line_feed, docletsOf_append_of_blank isBlankLine_nil,
    parse_eq_docletsOf, parse_eq_docletsOf]
  congr 1
  rcases hgap with rfl | rfl
  · rw [List.append_nil]
  · rw [docletsOf_append_of_blank isBlankLine_nil]
    exact List.append_nil _

end

/-- **Doclets are written and read back, and composed.** Under a text without tag lines, doclets with one line each are
read back, and cleaning leaves the lines of the trimmed text. The doclets of two texts with a blank line between them are
those of the first text and then those of the second. -/
theorem parse_written_and_parse_append :
    (∀ (text : String) (doclets : List Doclet), (∀ line ∈ splitLines text.toList, isTagLine line = false) →
      (∀ doclet ∈ doclets, doclet.Writable) → parse (written text doclets) = doclets ∧
        splitLines (clean (written text doclets)).toList = splitLines (trimString text).toList) ∧
    ∀ a b : String, parse (a ++ "\n\n" ++ b) = parse a ++ parse b :=
  ⟨fun _ _ htext h => parse_written htext h, parse_append⟩

/-- A value may start with a tag of its own. -/
theorem parse_written_see :
    parse (written " A button.\r" [⟨"deprecated", ""⟩, ⟨"see", "@link  Button"⟩]) =
        [⟨"deprecated", ""⟩, ⟨"see", "@link  Button"⟩] ∧
      splitLines (clean (written " A button.\r" [⟨"deprecated", ""⟩, ⟨"see", "@link  Button"⟩])).toList =
        splitLines (trimString " A button.\r").toList := by
  have hdeprecated : Writable ⟨"deprecated", ""⟩ :=
    ⟨by decide, List.all_eq_true.mp (by decide +kernel), by decide +kernel, by simp⟩
  have hunbroken : "@link  Button".toList.any isLineBreak = false := by decide +kernel
  have hsee : Writable ⟨"see", "@link  Button"⟩ :=
    ⟨by decide, List.all_eq_true.mp (by decide +kernel), by decide +kernel,
      fun c hc => Bool.eq_false_iff.mpr (List.any_eq_false.mp hunbroken c hc)⟩
  exact parse_written_and_parse_append.1 _ _ (by decide +kernel)
    (List.forall_mem_cons.mpr ⟨hdeprecated, List.forall_mem_singleton.mpr hsee⟩)

end ComponentDocs.Doclet

import ComponentDocs.Proofs.Text.Ends
import ComponentDocs.Proofs.Text.Pieces
import ComponentDocs.Source.Comment
import Mathlib.Data.List.Forall2

/-!
# Texts of comments

A documentation comment starts with `/**`, ends with `*/`, and may have a star in front of every line.

* `blockComment`: a comment with some text between its signs, `docText_eq`: the text that is read from it;
* `Unstarred`, `WithoutStars`: lines and texts without the stars in front of them; `withoutStars_docText`: this is read;
* `WithoutStars.sublist`, `WithoutStars.isInfix`: nothing is left that the text does not hold;
* `docComment`: a comment with some lines;
* **`docString_docComment`**: the lines of a comment are read back.
-/

namespace ComponentDocs

open Text

variable {body source text part : List Char} {lines : List (List Char)}

/-! ## Signs -/

/-- The comment with a text between its signs. -/
def blockComment (body : List Char) : List Char := "/*".toList ++ body ++ "*/".toList

theorem withoutStart_append (start cs : List Char) : withoutStart start (start ++ cs) = cs := by
  rw [withoutStart, if_pos (List.isPrefixOf_iff_prefix.mpr (List.prefix_append start cs)), List.drop_left]

theorem withoutEnd_append (cs ending : List Char) : withoutEnd ending (cs ++ ending) = cs := by
  rw [withoutEnd, if_pos (List.isSuffixOf_iff_suffix.mpr (List.suffix_append cs ending)), List.length_append,
    Nat.add_sub_cancel, List.take_left]

theorem trim_blockComment (body : List Char) : trim (blockComment body) = blockComment body := by
  have hends : blockComment body = '/' :: (('*' :: (body ++ ['*'])) ++ ['/']) := by
    rw [blockComment, List.append_assoc, List.cons_append, List.append_assoc]
    rfl
  rw [hends]
  exact trim_of_ends (by decide) (by decide) _

/-- A comment is a documentation comment if its text starts with a star, or if it is empty: then the star of the sign at
its end counts. -/
theorem isDocComment_blockComment_iff : isDocComment (blockComment body) = true ↔ body.head? = some '*' ∨ body = [] := by
  have hstart : trimStart (blockComment body) = blockComment body := List.dropWhile_cons_of_neg (by decide)
  rw [isDocComment, hstart]
  cases body with
  | nil => decide
  | cons c cs =>
    rw [List.isPrefixOf_iff_prefix]
    change ['/', '*', '*'] <+: '/' :: '*' :: c :: (cs ++ ['*', '/']) ↔ _
    simp only [List.cons_prefix_cons, List.nil_prefix, and_true, true_and, List.head?_cons, Option.some.injEq,
      reduceCtorEq, or_false]
    exact eq_comm

/-- **The text of a documentation comment**: what stands between its signs, without the star in front of each line. -/
theorem docText_eq (text : List Char) :
    docText (blockComment ('*' :: text)) = trim (joinLines ((splitAt '\n' text).map withoutStar)) := by
  have hopening : blockComment ('*' :: text) = ['/', '*', '*'] ++ (text ++ ['*', '/']) := by
    rw [blockComment, List.append_assoc]
    rfl
  rw [docText, trim_blockComment, hopening, withoutStart_append, withoutEnd_append]

/-! ## Lines without their star -/

/-- What is left of a line without the star in front of it: the blanks, the star and one blank after it go. -/
inductive Unstarred : List Char → List Char → Prop
  | plain {line : List Char} : (trimStart line).head? ≠ some '*' → Unstarred line line
  | starred {blanks rest : List Char} : isBlankLine blanks = true → (∀ c, rest.head? = some c → isBlank c = false) →
      Unstarred (blanks ++ '*' :: rest) rest
  | spaced {blanks rest : List Char} {c : Char} : isBlankLine blanks = true → isBlank c = true →
      Unstarred (blanks ++ '*' :: c :: rest) rest

theorem unstarred_withoutStar (line : List Char) : Unstarred line (withoutStar line) := by
  have hline : line = line.takeWhile isBlank ++ trimStart line := List.takeWhile_append_dropWhile.symm
  have hblanks : isBlankLine (line.takeWhile isBlank) = true := List.all_takeWhile
  unfold withoutStar
  split
  · next c rest hstar =>
    rw [hstar] at hline
    split_ifs with hc
    · rw [hline]
      exact .spaced hblanks hc
    · conv_lhs => rw [hline]
      exact .starred hblanks fun d hd => by rw [← Option.some.inj hd, Bool.eq_false_iff.mpr hc]
  · next hstar =>
    rw [hstar] at hline
    conv_lhs => rw [hline]
    exact .starred hblanks (by simp)
  · next hstar hlone =>
    refine .plain fun hhead => ?_
    obtain ⟨rest, hrest⟩ := List.head?_eq_some_iff.mp hhead
    cases rest with
    | nil => exact hlone hrest
    | cons c rest => exact hstar c rest hrest

theorem Unstarred.suffix {line rest : List Char} (h : Unstarred line rest) : rest <:+ line := by
  cases h with
  | plain => exact List.suffix_refl _
  | @starred blanks rest => exact (List.suffix_cons '*' _).trans (List.suffix_append blanks _)
  | @spaced blanks rest c =>
    exact ((List.suffix_cons c rest).trans (List.suffix_cons '*' _)).trans (List.suffix_append blanks _)

/-- The text is what is left of another one without the stars in front of its lines and without blanks at its ends. -/
def WithoutStars (source text : List Char) : Prop :=
  ∃ lines, List.Forall₂ Unstarred (splitAt '\n' source) lines ∧ text = trim (joinLines lines)

theorem withoutStars_docText (text : List Char) : WithoutStars text (docText (blockComment ('*' :: text))) := by
  refine ⟨(splitAt '\n' text).map withoutStar, ?_, docText_eq text⟩
  rw [List.forall₂_map_right_iff, List.forall₂_same]
  exact fun line _ => unstarred_withoutStar line

theorem join_sublist {pieces others : List (List Char)} (separator : List Char)
    (h : List.Forall₂ Unstarred pieces others) : List.Sublist (join separator others) (join separator pieces) := by
  induction h with
  | nil => exact List.Sublist.refl _
  | @cons piece other pieces others hpiece hpieces ih =>
    cases hpieces with
    | nil => exact hpiece.suffix.sublist
    | cons _ _ => exact (hpiece.suffix.sublist.append (List.Sublist.refl _)).append ih

theorem WithoutStars.sublist (h : WithoutStars source text) : text.Sublist source := by
  obtain ⟨lines, hlines, rfl⟩ := h
  refine (isInfix_trim _).sublist.trans ?_
  have hjoin := join_sublist ['\n'] hlines
  rwa [join_splitAt] at hjoin

theorem exists_line_of_infix (hpart : '\n' ∉ part) (hlines : ∀ line ∈ lines, '\n' ∉ line) (hne : lines ≠ [])
    (h : part <:+: joinLines lines) : ∃ line ∈ lines, part <:+: line := by
  have hpieces := exists_piece_of_infix hpart h
  rwa [joinLines, splitAt_join hne hlines] at hpieces

theorem exists_piece_of_mem {pieces : List (List Char)} (h : List.Forall₂ Unstarred pieces lines) :
    ∀ line ∈ lines, ∃ piece ∈ pieces, line <:+ piece := by
  induction h with
  | nil => simp
  | @cons piece first pieces lines hfirst _ ih =>
    rw [List.forall_mem_cons]
    refine ⟨⟨piece, List.mem_cons_self, hfirst.suffix⟩, fun line hline => ?_⟩
    obtain ⟨other, hother, hsuffix⟩ := ih line hline
    exact ⟨other, List.mem_cons_of_mem _ hother, hsuffix⟩

/-- What stands on one line of what is left stood in the text. -/
theorem WithoutStars.isInfix (h : WithoutStars source text) (hpart : '\n' ∉ part) (htext : part <:+: text) :
    part <:+: source := by
  obtain ⟨lines, hlines, rfl⟩ := h
  have hne : lines ≠ [] := by
    rintro rfl
    exact splitAt_ne_nil '\n' source (List.forall₂_nil_right_iff.mp hlines)
  have hpieces := exists_piece_of_mem hlines
  have hfree : ∀ line ∈ lines, '\n' ∉ line := fun line hline hmem => by
    obtain ⟨piece, hpiece, hsuffix⟩ := hpieces line hline
    exact notMem_of_mem_splitAt hpiece (hsuffix.subset hmem)
  obtain ⟨line, hline, hpart⟩ := exists_line_of_infix hpart hfree hne (htext.trans (isInfix_trim _))
  obtain ⟨piece, hpiece, hsuffix⟩ := hpieces line hline
  rw [← join_splitAt '\n' source]
  exact (hpart.trans hsuffix.isInfix).trans (infix_join hpiece)

/-! ## Comments written line by line -/

/-- The documentation comment that holds some lines, each after a star. -/
def docComment (lines : List (List Char)) : List Char :=
  joinLines ("/**".toList :: lines.map (" * ".toList ++ ·) ++ [" */".toList])

/-- What the signs of a written comment stand around. -/
def starredLines (lines : List (List Char)) : List (List Char) := [] :: lines.map (" * ".toList ++ ·) ++ [[' ']]

theorem joinLines_concat {pieces : List (List Char)} (hne : pieces ≠ []) (piece : List Char) :
    joinLines (pieces ++ [piece]) = joinLines pieces ++ '\n' :: piece := by
  rw [joinLines, join_concat, if_neg hne, List.append_assoc]
  rfl

theorem docComment_eq (lines : List (List Char)) :
    docComment lines = blockComment ('*' :: joinLines (starredLines lines)) := by
  have hfirst : ∀ rest, joinLines ("/**".toList :: rest) = "/**".toList ++ joinLines ([] :: rest) := by
    intro rest
    cases rest <;> rfl
  rw [docComment, joinLines_concat (List.cons_ne_nil _ _), starredLines, joinLines_concat (List.cons_ne_nil _ _), hfirst,
    blockComment]
  simp

theorem withoutStar_starred (line : List Char) : withoutStar (" * ".toList ++ line) = line := rfl

theorem map_withoutStar_starredLines (lines : List (List Char)) :
    (starredLines lines).map withoutStar = [] :: lines ++ [[' ']] := by
  have hlines : withoutStar ∘ (" * ".toList ++ ·) = id := funext withoutStar_starred
  rw [starredLines, List.map_append, List.map_cons, List.map_map, hlines, List.map_id]
  rfl

theorem docText_docComment (h : ∀ line ∈ lines, '\n' ∉ line) : docText (docComment lines) = trim (joinLines lines) := by
  have hfree : ∀ line ∈ starredLines lines, '\n' ∉ line := by
    simp only [starredLines, List.cons_append, List.forall_mem_cons, List.forall_mem_append, List.forall_mem_map]
    exact ⟨List.not_mem_nil, fun line hline => by simpa using h line hline, by decide, by simp⟩
  have hsplit : splitAt '\n' (joinLines (starredLines lines)) = starredLines lines :=
    splitAt_join (List.cons_ne_nil _ _) hfree
  obtain ⟨before, hbefore, hfirst⟩ : ∃ before, isBlankLine before = true ∧
      joinLines ([] :: lines) = before ++ joinLines lines := by
    cases lines with
    | nil => exact ⟨[], rfl, rfl⟩
    | cons line lines => exact ⟨['\n'], rfl, rfl⟩
  rw [docComment_eq, docText_eq, hsplit, map_withoutStar_starredLines, joinLines_concat (List.cons_ne_nil _ _), hfirst]
  exact trim_append_of_blank hbefore (by decide) _

/-- A written comment ends at its last sign, if none of its lines holds that sign. -/
theorem docComment_closed (h : ∀ line ∈ lines, '\n' ∉ line) (hclosed : ∀ line ∈ lines, ¬ ['*', '/'] <:+: line) :
    ¬ ['*', '/'] <:+: '*' :: joinLines (starredLines lines) := by
  have hfirst : '*' :: joinLines (starredLines lines) =
      joinLines (['*'] :: (lines.map (" * ".toList ++ ·) ++ [[' ']])) := by
    rw [starredLines, List.cons_append]
    cases lines <;> rfl
  have hfree : ∀ line ∈ ['*'] :: (lines.map (" * ".toList ++ ·) ++ [[' ']]), '\n' ∉ line := by
    simp only [List.forall_mem_cons, List.forall_mem_append, List.forall_mem_map]
    exact ⟨by decide, fun line hline => by simpa using h line hline, by decide, by simp⟩
  rw [hfirst]
  intro hbody
  obtain ⟨line, hline, hsign⟩ := exists_line_of_infix (by decide) hfree (List.cons_ne_nil _ _) hbody
  simp only [List.mem_cons, List.mem_append, List.mem_map, List.not_mem_nil, or_false] at hline
  rcases hline with rfl | ⟨line, hline, rfl⟩ | rfl
  · exact absurd hsign (by decide)
  · refine hclosed line hline ?_
    -- the sign cannot start in front of the line, where a blank follows the star
    simpa [List.infix_cons_iff, List.cons_prefix_cons] using hsign
  · exact absurd hsign (by decide)

/-- **A text written as a documentation comment, a star in front of each line, is read back** without blanks at its ends:
its lines stay as they are, but for blank ones at the ends, the start of the first and the end of the last. If none of
them holds the closing sign, what is written is one comment. -/
theorem docString_docComment (h : ∀ line ∈ lines, '\n' ∉ line) :
    docString (String.ofList (docComment lines)) = trimString (String.ofList (joinLines lines)) ∧
    ((∀ line ∈ lines, ∀ c ∈ line, isLineBreak c = false) →
      splitLines (docText (docComment lines)) = trimEnds (shed lines)) ∧
    ((∀ line ∈ lines, ¬ ['*', '/'] <:+: line) →
      ∃ body, docComment lines = blockComment ('*' :: body) ∧ ¬ ['*', '/'] <:+: '*' :: body) := by
  refine ⟨?_, fun hunbroken => ?_, fun hclosed => ⟨_, docComment_eq lines, docComment_closed h hclosed⟩⟩
  · rw [docString, String.toList_ofList, docText_docComment h, trimString, String.toList_ofList]
  · rw [docText_docComment h, splitLines_trim, shed_splitLines_joinLines hunbroken]

/-- Lines with blanks, stars and tags at their starts. -/
def sampleLines : List (List Char) :=
  ["".toList, "  Intro:".toList, "  * a * b".toList, "".toList, "@type \x7bX\x7d ".toList]

theorem docString_sampleLines :
    (∀ line ∈ sampleLines, '\n' ∉ line) ∧
    String.ofList (docComment sampleLines) =
      "/**\n * \n *   Intro:\n *   * a * b\n * \n * @type \x7bX\x7d \n */" ∧
    docString "/**\n * \n *   Intro:\n *   * a * b\n * \n * @type \x7bX\x7d \n */" =
      "Intro:\n  * a * b\n\n@type \x7bX\x7d" := by
  have hfree : ∀ line ∈ sampleLines, '\n' ∉ line := by decide
  have hcomment : String.ofList (docComment sampleLines) =
      "/**\n * \n *   Intro:\n *   * a * b\n * \n * @type \x7bX\x7d \n */" := by decide
  have htext := (docString_docComment hfree).1
  rw [hcomment] at htext
  exact ⟨hfree, hcomment, htext.trans (by decide)⟩

end ComponentDocs

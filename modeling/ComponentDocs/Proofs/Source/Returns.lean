import ComponentDocs.Proofs.Doclet.Description
import ComponentDocs.Proofs.Lists
import ComponentDocs.Proofs.Source.Comment

/-!
# Comments with carriage returns

A source may end its lines with line feeds alone, or with a carriage return in front of each of them. The comments of
both document the same.

* `withReturns`: a text with a carriage return in front of every line feed, `trim_withReturns`: it is trimmed alike;
* `splitLines_append_congr`: lines that follow a text without carriage returns may be exchanged;
* `withoutStar_append_return`: a carriage return at the end of a line stays, or goes with the star in front of it;
* `splitLines_docText_withReturns`: the texts of both comments have the same lines;
* **`documents_withReturns`**: both comments hold the same doclets, and the same lines of text.
-/

namespace ComponentDocs

open Text

variable {cs part comment : List Char}

/-! ## Carriage returns -/

namespace Text

/-- The text with a carriage return in front of every line feed. -/
def withReturns (cs : List Char) : List Char := cs.flatMap fun c => if c = '\n' then ['\r', '\n'] else [c]

/-- The string with a carriage return in front of every line feed. -/
def withReturnsString (s : String) : String := String.ofList (withReturns s.toList)

theorem withReturns_line_feed (cs : List Char) : withReturns ('\n' :: cs) = '\r' :: '\n' :: withReturns cs := rfl

theorem withReturns_cons {c : Char} (hc : c ≠ '\n') (cs : List Char) :
    withReturns (c :: cs) = c :: withReturns cs := by
  rw [withReturns, List.flatMap_cons, if_neg hc]
  rfl

theorem withReturns_append (cs ds : List Char) : withReturns (cs ++ ds) = withReturns cs ++ withReturns ds :=
  List.flatMap_append

theorem withReturns_of_notMem (h : '\n' ∉ cs) : withReturns cs = cs := by
  induction cs with
  | nil => rfl
  | cons c cs ih =>
    rw [List.mem_cons, not_or] at h
    rw [withReturns_cons (Ne.symm h.1), ih h.2]

/-! ## Blanks -/

theorem isBlankLine_withReturns (cs : List Char) : isBlankLine (withReturns cs) = isBlankLine cs := by
  induction cs with
  | nil => rfl
  | cons c cs ih =>
    by_cases hc : c = '\n'
    · rw [hc, withReturns_line_feed, isBlankLine_cons, isBlankLine_cons, isBlankLine_cons, ih]
      rfl
    · rw [withReturns_cons hc, isBlankLine_cons, isBlankLine_cons, ih]

theorem trimStart_withReturns (cs : List Char) : trimStart (withReturns cs) = withReturns (trimStart cs) := by
  induction cs with
  | nil => rfl
  | cons c cs ih =>
    by_cases hc : c = '\n'
    · rw [hc, withReturns_line_feed, trimStart_cons, if_pos (by decide), trimStart_cons, if_pos (by decide), ih,
        trimStart_cons, if_pos (by decide)]
    · rw [withReturns_cons hc, trimStart_cons, trimStart_cons, ih]
      split_ifs
      · rfl
      · rw [withReturns_cons hc]

theorem trimEnd_withReturns (cs : List Char) : trimEnd (withReturns cs) = withReturns (trimEnd cs) := by
  induction cs with
  | nil => rfl
  | cons c cs ih =>
    have hblank := isBlankLine_withReturns (c :: cs)
    by_cases hc : c = '\n'
    · subst hc
      rw [withReturns_line_feed, isBlankLine_cons, show isBlank '\r' = true by decide, Bool.true_and] at hblank
      rw [withReturns_line_feed, trimEnd_cons, isBlankLine_cons, show isBlank '\r' = true by decide, Bool.true_and,
        trimEnd_cons, trimEnd_cons, ih, hblank]
      split_ifs <;> rfl
    · rw [withReturns_cons hc] at hblank ⊢
      rw [trimEnd_cons, trimEnd_cons, ih, hblank]
      split_ifs
      · rfl
      · rw [withReturns_cons hc]

theorem trim_withReturns (cs : List Char) : trim (withReturns cs) = withReturns (trim cs) := by
  rw [trim, trimStart_withReturns, trimEnd_withReturns, trim]

/-! ## Parts on one line -/

section

variable (hfeed : '\n' ∉ part) (hreturn : '\r' ∉ part)
include hfeed hreturn

theorem prefix_withReturns_iff : part <+: withReturns cs ↔ part <+: cs := by
  induction part generalizing cs with
  | nil => simp
  | cons p part ih =>
    rw [List.mem_cons, not_or] at hfeed hreturn
    cases cs with
    | nil => rfl
    | cons c cs =>
      by_cases hc : c = '\n'
      · rw [hc, withReturns_line_feed, List.cons_prefix_cons, List.cons_prefix_cons]
        exact iff_of_false (fun h => hreturn.1 h.1.symm) fun h => hfeed.1 h.1.symm
      · rw [withReturns_cons hc, List.cons_prefix_cons, List.cons_prefix_cons, ih hfeed.2 hreturn.2]

theorem suffix_withReturns_iff : part <:+ withReturns cs ↔ part <:+ cs := by
  induction part using List.reverseRecOn generalizing cs with
  | nil => simp
  | append_singleton part p ih =>
    simp only [List.mem_append, List.mem_singleton, not_or] at hfeed hreturn
    rcases List.eq_nil_or_concat cs with rfl | ⟨cs, c, rfl⟩
    · rfl
    rw [List.concat_eq_append, withReturns_append, concat_suffix_concat_iff]
    by_cases hc : c = '\n'
    · rw [hc, show withReturns ['\n'] = ['\r'] ++ ['\n'] from rfl, ← List.append_assoc, concat_suffix_concat_iff]
      exact iff_of_false (fun h => hfeed.2 h.2.symm) fun h => hfeed.2 h.2.symm
    · rw [withReturns_cons hc, show withReturns [] = [] from rfl, concat_suffix_concat_iff, ih hfeed.1 hreturn.1]

theorem withoutStart_withReturns (cs : List Char) :
    withoutStart part (withReturns cs) = withReturns (withoutStart part cs) := by
  by_cases h : part <+: cs
  · obtain ⟨rest, rfl⟩ := h
    rw [withReturns_append, withReturns_of_notMem hfeed, withoutStart_append, withoutStart_append]
  · rw [withoutStart, withoutStart, if_neg, if_neg]
    · rwa [List.isPrefixOf_iff_prefix]
    · rwa [List.isPrefixOf_iff_prefix, prefix_withReturns_iff hfeed hreturn]

theorem withoutEnd_withReturns (cs : List Char) :
    withoutEnd part (withReturns cs) = withReturns (withoutEnd part cs) := by
  by_cases h : part <:+ cs
  · obtain ⟨rest, rfl⟩ := h
    rw [withReturns_append, withReturns_of_notMem hfeed, withoutEnd_append, withoutEnd_append]
  · rw [withoutEnd, withoutEnd, if_neg, if_neg]
    · rwa [List.isSuffixOf_iff_suffix]
    · rwa [List.isSuffixOf_iff_suffix, suffix_withReturns_iff hfeed hreturn]

end

/-! ## Lines -/

/-- Texts with the same lines have them behind any text without carriage returns. -/
theorem splitLines_append_congr {line xs ys : List Char} (hline : '\r' ∉ line) (h : splitLines xs = splitLines ys) :
    splitLines (line ++ xs) = splitLines (line ++ ys) := by
  induction line with
  | nil => exact h
  | cons c line ih =>
    rw [List.mem_cons, not_or] at hline
    have hcons : ∀ zs, splitLines (c :: zs) = if isLineBreak c then [] :: splitLines zs else consLine c (splitLines zs) :=
      fun zs => by
        rw [splitLines]
        rintro rest rfl
        exact absurd rfl hline.1
    rw [List.cons_append, List.cons_append, hcons, hcons, ih hline.2]

/-- A carriage return in front of a line feed adds no line. -/
theorem splitLines_return_line_feed (xs : List Char) : splitLines ('\r' :: '\n' :: xs) = splitLines ('\n' :: xs) := by
  rw [splitLines, splitLines_line_feed]

end Text

/-! ## Comments -/

/-- A carriage return at the end of a line stays there, or goes with the star in front of it. -/
theorem withoutStar_append_return (line : List Char) :
    withoutStar (line ++ ['\r']) = withoutStar line ++ ['\r'] ∨ withoutStar (line ++ ['\r']) = withoutStar line := by
  have hstart : trimStart (line ++ ['\r']) = if (trimStart line).isEmpty then [] else trimStart line ++ ['\r'] :=
    List.dropWhile_append
  unfold withoutStar
  rw [hstart]
  rcases htrim : trimStart line with _ | ⟨c, _ | ⟨d, rest⟩⟩
  · exact .inl rfl
  · by_cases hc : c = '*'
    · rw [hc]
      exact .inr rfl
    · left
      simp [hc]
  · left
    by_cases hc : c = '*'
    · simp only [hc, List.isEmpty_cons, Bool.false_eq_true, if_false, List.cons_append]
      split_ifs <;> rfl
    · simp [hc]

theorem splitLines_unstarred_withReturns (h : '\r' ∉ cs) :
    splitLines (joinLines ((splitAt '\n' (withReturns cs)).map withoutStar)) =
      splitLines (joinLines ((splitAt '\n' cs).map withoutStar)) := by
  induction hlength : cs.length using Nat.strong_induction_on generalizing cs with
  | _ n ih =>
    rcases splitAt_cases '\n' cs with ⟨hfeed, -⟩ | ⟨first, rest, hfirst, rfl, -⟩
    · rw [withReturns_of_notMem hfeed]
    rw [List.mem_append, List.mem_cons, not_or, not_or] at h
    have hrest := ih rest.length (by rw [← hlength, List.length_append, List.length_cons]; omega) h.2.2 rfl
    have hstart : '\r' ∉ withoutStar first := fun hmem => h.1 ((unstarred_withoutStar first).suffix.subset hmem)
    have hne : ∀ ds, (splitAt '\n' ds).map withoutStar ≠ [] := fun ds =>
      List.map_eq_nil_iff.not.mpr (splitAt_ne_nil '\n' ds)
    have hreturns : withReturns (first ++ '\n' :: rest) = first ++ ['\r'] ++ '\n' :: withReturns rest := by
      rw [withReturns_append, withReturns_of_notMem hfirst, withReturns_line_feed, List.append_assoc]
      rfl
    rw [hreturns, splitAt_append_cons, splitAt_append_cons, splitAt_of_notMem hfirst,
      splitAt_of_notMem (by simpa using hfirst), List.singleton_append, List.singleton_append, List.map_cons,
      List.map_cons, joinLines_cons (hne _), joinLines_cons (hne _)]
    have hbreak : splitLines ('\n' :: joinLines ((splitAt '\n' (withReturns rest)).map withoutStar)) =
        splitLines ('\n' :: joinLines ((splitAt '\n' rest).map withoutStar)) := by
      rw [splitLines_line_feed, splitLines_line_feed, hrest]
    rcases withoutStar_append_return first with hstar | hstar
    · rw [hstar, List.append_assoc]
      exact splitLines_append_congr hstart ((splitLines_return_line_feed _).trans hbreak)
    · rw [hstar]
      exact splitLines_append_congr hstart hbreak

theorem withoutStart_subset (start cs : List Char) : withoutStart start cs ⊆ cs := by
  rw [withoutStart]
  split_ifs
  · exact List.drop_subset _ _
  · exact List.Subset.refl _

theorem withoutEnd_subset (ending cs : List Char) : withoutEnd ending cs ⊆ cs := by
  rw [withoutEnd]
  split_ifs
  · exact List.take_subset _ _
  · exact List.Subset.refl _

/-- **The texts of both comments have the same lines.** -/
theorem splitLines_docText_withReturns (h : '\r' ∉ comment) :
    splitLines (docText (withReturns comment)) = splitLines (docText comment) := by
  have hbody : '\r' ∉ withoutEnd ['*', '/'] (withoutStart ['/', '*', '*'] (trim comment)) := fun hmem =>
    h ((isInfix_trim comment).subset (withoutStart_subset _ _ (withoutEnd_subset _ _ hmem)))
  rw [docText, docText, trim_withReturns, withoutStart_withReturns (by decide) (by decide),
    withoutEnd_withReturns (by decide) (by decide), splitLines_trim, splitLines_trim,
    splitLines_unstarred_withReturns hbody]

theorem isDocComment_withReturns (comment : List Char) : isDocComment (withReturns comment) = isDocComment comment := by
  rw [isDocComment, isDocComment, trimStart_withReturns, Bool.eq_iff_iff, List.isPrefixOf_iff_prefix,
    List.isPrefixOf_iff_prefix]
  exact prefix_withReturns_iff (by decide) (by decide)

/-- **A comment documents the same with a carriage return in front of every line feed**: it is a documentation comment as
before, with the same doclets and the same lines of cleaned text. -/
theorem documents_withReturns {comment : String} (h : '\r' ∉ comment.toList) :
    isDocComment (withReturnsString comment).toList = isDocComment comment.toList ∧
    Doclet.parse (docString (withReturnsString comment)) = Doclet.parse (docString comment) ∧
    splitLines (Doclet.clean (docString (withReturnsString comment))).toList =
      splitLines (Doclet.clean (docString comment)).toList := by
  have hcomment : (withReturnsString comment).toList = withReturns comment.toList := String.toList_ofList
  have hlines : splitLines (docString (withReturnsString comment)).toList = splitLines (docString comment).toList := by
    rw [docString, docString, String.toList_ofList, String.toList_ofList, hcomment, splitLines_docText_withReturns h]
  rw [hcomment]
  exact ⟨isDocComment_withReturns _, Doclet.parse_congr hlines, Doclet.splitLines_clean_congr hlines⟩

/-- A comment with a line that is only a star, a line without a star, and a doclet that goes on. -/
def starlessComment : String := "/**\n * One \n *\n   two\n *\n * @type A\n   B\n */"

theorem documents_starlessComment :
    '\r' ∉ starlessComment.toList ∧
    Doclet.parse (docString (withReturnsString starlessComment)) = [⟨"type", "A B"⟩] ∧
    splitLines (Doclet.clean (docString (withReturnsString starlessComment))).toList =
      ["One ".toList, [], "   two".toList] := by
  have h : '\r' ∉ starlessComment.toList := by decide
  obtain ⟨-, hparse, hclean⟩ := documents_withReturns h
  exact ⟨h, hparse.trans (by decide), hclean.trans (by decide)⟩

end ComponentDocs

import ComponentDocs.Proofs.Doclet.TagLine
import ComponentDocs.Proofs.Lists
import ComponentDocs.Proofs.Source.Comment
import ComponentDocs.Source.Language
import Mathlib.Data.Nat.Find

/-!
# The comments that open a file

* `OpeningPiece`, `IsOpening`: blanks and comments, and texts made of them, in front of some rest;
* `OpeningPiece.openingComments_append`, `IsOpening.openingComments_append`: the scan reads one piece, and all of them;
* `openingComments_of_stuck`: the scan stops where there is no further piece;
* `IsLongestOpening`: the longest such text that a file opens with; `exists_isLongestOpening`,
  `IsLongestOpening.unique`: there is one, and only one;
* `Mentions`: the pragma stands in a text; `IsOpening.mentions_iff`: in an opening it stands within a comment;
* **`hasFlowPragma_iff_mentions`**: a file has the pragma if and only if it stands in a comment of the longest opening.
-/

namespace ComponentDocs

open Text

variable {content body soFar piece opening rest cs as bs : List Char} {texts found : List (List Char)}

/-! ## Openings -/

/-- No sign that ends a block comment stands in the text, even with a star behind it. -/
def KeepsOpen (body : List Char) : Prop := ¬ ['*', '/'] <:+: body ++ ['*']

/-- A blank or a comment in front of a rest, with the text of the comment. A line comment goes on up to a line feed or
the end, and a block comment up to the first sign that ends it. -/
inductive OpeningPiece (rest : List Char) : List Char → List (List Char) → Prop
  | blank {c : Char} : isBlank c = true → OpeningPiece rest [c] []
  | line {body : List Char} : '\n' ∉ body → (∀ c, rest.head? = some c → c = '\n') →
      OpeningPiece rest ("//".toList ++ body) [body]
  | block {body : List Char} : KeepsOpen body → OpeningPiece rest (blockComment body) [body]

/-- A text made of blanks and comments in front of a rest, with the texts of the comments. -/
inductive IsOpening (rest : List Char) : List Char → List (List Char) → Prop
  | nil : IsOpening rest [] []
  | cons {piece opening : List Char} {found texts : List (List Char)} : OpeningPiece (opening ++ rest) piece found →
      IsOpening rest opening texts → IsOpening rest (piece ++ opening) (found ++ texts)

/-- The longest text made of blanks and comments that a content opens with. -/
def IsLongestOpening (content opening : List Char) (texts : List (List Char)) : Prop :=
  (∃ rest, content = opening ++ rest ∧ IsOpening rest opening texts) ∧
    ∀ other rest found, content = other ++ rest → IsOpening rest other found → other.length ≤ opening.length

/-! ## The scan -/

theorem commentsFrom_blank {c : Char} (hc : isBlank c = true) (rest : List Char) :
    commentsFrom .between (c :: rest) = commentsFrom .between rest := by
  have hslash : c ≠ '/' := by
    rintro rfl
    exact absurd hc (by decide)
  rw [commentsFrom, if_pos hc]
  · rintro others rfl
    exact absurd rfl hslash
  · rintro others rfl
    exact absurd rfl hslash

theorem commentsFrom_line (hbody : '\n' ∉ body) (hrest : ∀ c, rest.head? = some c → c = '\n') :
    commentsFrom (.line soFar) (body ++ rest) = (soFar.reverse ++ body) :: commentsFrom .between rest := by
  induction body generalizing soFar with
  | nil =>
    rw [List.nil_append, List.append_nil]
    cases rest with
    | nil => rfl
    | cons c rest =>
      rw [hrest c rfl, commentsFrom_blank (by decide)]
      rfl
  | cons c body ih =>
    rw [List.mem_cons, not_or] at hbody
    rw [List.cons_append, commentsFrom, if_neg (Ne.symm hbody.1), ih hbody.2, List.reverse_cons, List.append_assoc]
    rfl

theorem keepsOpen_cons_iff {c : Char} :
    KeepsOpen (c :: body) ↔ ¬ (c = '*' ∧ body.head? = some '/') ∧ KeepsOpen body := by
  rw [KeepsOpen, KeepsOpen, List.cons_append, List.infix_cons_iff, not_or]
  refine and_congr_left fun _ => not_congr ?_
  cases body with
  | nil => simp
  | cons d body => simp [List.cons_prefix_cons, eq_comm]

theorem commentsFrom_block (hbody : KeepsOpen body) : commentsFrom (.block soFar) (body ++ '*' :: '/' :: rest) =
    (soFar.reverse ++ body) :: commentsFrom .between rest := by
  induction body generalizing soFar with
  | nil => rw [List.nil_append, List.append_nil, commentsFrom]
  | cons c body ih =>
    obtain ⟨hfirst, hbody⟩ := keepsOpen_cons_iff.mp hbody
    rw [List.cons_append, commentsFrom, ih hbody, List.reverse_cons, List.append_assoc]
    · rfl
    · rintro others rfl hothers
      cases body with
      | nil => cases hothers
      | cons d body => exact hfirst ⟨rfl, by rw [(List.cons.inj hothers).1]; rfl⟩

theorem commentsFrom_block_of_open (h : ¬ ['*', '/'] <:+: cs) : commentsFrom (.block soFar) cs = [] := by
  induction cs generalizing soFar with
  | nil => rfl
  | cons c cs ih =>
    rw [List.infix_cons_iff, not_or] at h
    rw [commentsFrom, ih h.2]
    rintro others rfl rfl
    exact h.1 ⟨others, rfl⟩

theorem exists_keepsOpen (h : ['*', '/'] <:+: cs) : ∃ body rest, cs = body ++ '*' :: '/' :: rest ∧ KeepsOpen body := by
  induction cs with
  | nil => simp at h
  | cons c cs ih =>
    by_cases hfirst : ['*', '/'] <+: c :: cs
    · obtain ⟨rest, hrest⟩ := hfirst
      exact ⟨[], rest, hrest.symm, by unfold KeepsOpen; decide⟩
    · obtain ⟨body, rest, rfl, hbody⟩ := ih ((List.infix_cons_iff.mp h).resolve_left hfirst)
      refine ⟨c :: body, rest, rfl, keepsOpen_cons_iff.mpr ⟨?_, hbody⟩⟩
      rintro ⟨rfl, hhead⟩
      obtain ⟨others, rfl⟩ := List.head?_eq_some_iff.mp hhead
      exact hfirst ⟨_, rfl⟩

theorem OpeningPiece.openingComments_append (h : OpeningPiece rest piece texts) :
    openingComments (piece ++ rest) = texts ++ openingComments rest := by
  cases h with
  | blank hc => exact commentsFrom_blank hc rest
  | line hbody hrest => exact commentsFrom_line hbody hrest
  | @block body hbody =>
    rw [blockComment, List.append_assoc, List.append_assoc]
    exact commentsFrom_block hbody

theorem IsOpening.openingComments_append (h : IsOpening rest opening texts) :
    openingComments (opening ++ rest) = texts ++ openingComments rest := by
  induction h with
  | nil => rfl
  | cons hpiece _ ih => rw [List.append_assoc, hpiece.openingComments_append, ih, List.append_assoc]

/-- Two slashes start a line comment that goes on up to the next line feed. -/
theorem exists_openingPiece_of_slashes (cs : List Char) :
    ∃ piece rest, '/' :: '/' :: cs = piece ++ rest ∧ OpeningPiece rest piece [cs.takeWhile (· ≠ '\n')] := by
  have hbody : '\n' ∉ cs.takeWhile (· ≠ '\n') := fun hmem => by simpa using List.mem_takeWhile_imp hmem
  have hrest : ∀ c, (cs.dropWhile (· ≠ '\n')).head? = some c → c = '\n' := fun c hc => by
    have := List.head?_dropWhile_not (· ≠ '\n') cs
    rw [hc] at this
    simpa using this
  refine ⟨_, _, ?_, .line hbody hrest⟩
  rw [List.append_assoc, List.takeWhile_append_dropWhile]
  rfl

/-- The scan stops where no further piece is. -/
theorem openingComments_of_stuck (h : ∀ piece rest texts, content = piece ++ rest → ¬ OpeningPiece rest piece texts) :
    openingComments content = [] := by
  by_cases hline : ∃ rest, content = '/' :: '/' :: rest
  · obtain ⟨rest, rfl⟩ := hline
    obtain ⟨piece, rest, heq, hpiece⟩ := exists_openingPiece_of_slashes rest
    exact absurd hpiece (h _ _ _ heq)
  by_cases hblock : ∃ rest, content = '/' :: '*' :: rest
  · obtain ⟨rest, rfl⟩ := hblock
    refine commentsFrom_block_of_open fun hclosed => ?_
    obtain ⟨body, rest, rfl, hbody⟩ := exists_keepsOpen hclosed
    exact h (blockComment body) rest [body] (by simp [blockComment]) (.block hbody)
  cases content with
  | nil => rfl
  | cons c rest =>
    have hc : ¬ isBlank c = true := fun hc => h [c] rest [] rfl (.blank hc)
    rw [openingComments, commentsFrom, if_neg hc]
    · rintro others rfl rfl
      exact hline ⟨_, rfl⟩
    · rintro others rfl rfl
      exact hblock ⟨_, rfl⟩

/-! ## The longest opening -/

theorem IsOpening.append_piece (h : IsOpening (piece ++ rest) opening texts) (hpiece : OpeningPiece rest piece found) :
    IsOpening rest (opening ++ piece) (texts ++ found) := by
  induction h with
  | nil =>
    have : IsOpening rest (piece ++ []) (found ++ []) := .cons hpiece .nil
    rwa [List.append_nil, List.append_nil] at this
  | cons hfirst _ ih =>
    rw [List.append_assoc, List.append_assoc]
    refine .cons ?_ ih
    rwa [List.append_assoc]

theorem OpeningPiece.ne_nil (h : OpeningPiece rest piece found) : piece ≠ [] := by
  cases h <;> simp [blockComment]

/-- No piece stands behind the longest opening, so that the scan reads its comments and no more. -/
theorem IsLongestOpening.openingComments_eq (h : IsLongestOpening content opening texts) :
    openingComments content = texts := by
  obtain ⟨⟨rest, rfl, hopening⟩, hlongest⟩ := h
  -- A piece behind the opening would make a longer one, so the scan of the rest finds nothing.
  rw [hopening.openingComments_append, openingComments_of_stuck, List.append_nil]
  rintro piece others found rfl hpiece
  have := hlongest (opening ++ piece) others (texts ++ found) (by simp) (hopening.append_piece hpiece)
  rw [List.length_append] at this
  have hlength : piece.length = 0 := by omega
  exact hpiece.ne_nil (List.eq_nil_of_length_eq_zero hlength)

/-- A text opens with one longest opening, read in one way. -/
theorem IsLongestOpening.unique {other : List Char} (h : IsLongestOpening content opening texts)
    (hother : IsLongestOpening content other found) : other = opening ∧ found = texts := by
  refine ⟨?_, hother.openingComments_eq.symm.trans h.openingComments_eq⟩
  obtain ⟨⟨rest, hrest, hopening⟩, hlongest⟩ := h
  obtain ⟨⟨rest', hrest', hopening'⟩, hlongest'⟩ := hother
  have hlength := (hlongest _ _ _ hrest' hopening').antisymm (hlongest' _ _ _ hrest hopening)
  exact (List.append_inj (hrest'.symm.trans hrest) hlength).1

/-- The content opens with a text of a length that is made of blanks and comments. -/
def OpensFor (content : List Char) (length : ℕ) : Prop :=
  ∃ opening rest texts, content = opening ++ rest ∧ IsOpening rest opening texts ∧ opening.length = length

theorem OpensFor.le_length {length : ℕ} (h : OpensFor content length) : length ≤ content.length := by
  obtain ⟨opening, rest, texts, rfl, -, rfl⟩ := h
  simp

theorem exists_isLongestOpening (content : List Char) : ∃ opening texts, IsLongestOpening content opening texts := by
  classical
  have hempty : OpensFor content 0 := ⟨[], content, [], rfl, .nil, rfl⟩
  obtain ⟨opening, rest, texts, heq, hopening, hlength⟩ := Nat.findGreatest_spec hempty.le_length hempty
  refine ⟨opening, texts, ⟨rest, heq, hopening⟩, fun other rest' found heq' hother => ?_⟩
  have hother : OpensFor content other.length := ⟨other, rest', found, heq', hother, rfl⟩
  exact hlength ▸ Nat.le_findGreatest hother.le_length hother

/-! ## The pragma -/

/-- The pragma stands in the text, and no word character goes on after it. -/
def Mentions (cs : List Char) : Prop :=
  ∃ before after, cs = before ++ (flowPragma ++ after) ∧ ∀ c, after.head? = some c → isWord c = false

@[simp]
theorem not_mentions_nil : ¬ Mentions [] := by simp [Mentions, flowPragma]

theorem startsWithPragma_iff : startsWithPragma cs = true ↔
    ∃ after, cs = flowPragma ++ after ∧ ∀ c, after.head? = some c → isWord c = false := by
  rw [startsWithPragma, Bool.and_eq_true, List.isPrefixOf_iff_prefix]
  constructor
  · rintro ⟨⟨after, rfl⟩, hafter⟩
    refine ⟨after, rfl, fun c hc => ?_⟩
    rw [List.drop_left, hc] at hafter
    simpa using hafter
  · rintro ⟨after, rfl, hafter⟩
    refine ⟨List.prefix_append _ _, ?_⟩
    rw [List.drop_left]
    cases hhead : after.head? with
    | none => rfl
    | some c => simp [hafter c hhead]

theorem mentionsPragma_iff : mentionsPragma cs = true ↔ Mentions cs := by
  induction cs with
  | nil => simp [mentionsPragma]
  | cons c cs ih =>
    rw [mentionsPragma, Bool.or_eq_true, startsWithPragma_iff, ih]
    constructor
    · rintro (⟨after, heq, hafter⟩ | ⟨before, after, rfl, hafter⟩)
      · exact ⟨[], after, heq, hafter⟩
      · exact ⟨c :: before, after, rfl, hafter⟩
    · rintro ⟨_ | ⟨d, before⟩, after, heq, hafter⟩
      · exact .inl ⟨after, heq, hafter⟩
      · exact .inr ⟨before, after, (List.cons.inj heq).2, hafter⟩

/-- A character that is no part of the pragma and no word character keeps texts apart. -/
theorem mentions_append_cons {x : Char} (hpragma : x ∉ flowPragma) (hword : isWord x = false) :
    Mentions (as ++ x :: bs) ↔ Mentions as ∨ Mentions bs := by
  constructor
  · rintro ⟨before, after, heq, hafter⟩
    rcases apart_of_append_cons_eq hpragma heq with ⟨more, rfl, rfl⟩ | ⟨more, rfl⟩
    · refine .inl ⟨before, more, rfl, fun c hc => hafter c ?_⟩
      rw [List.head?_append, hc, Option.some_or]
    · exact .inr ⟨more, after, rfl, hafter⟩
  · rintro (⟨before, after, rfl, hafter⟩ | ⟨before, after, rfl, hafter⟩)
    · refine ⟨before, after ++ x :: bs, by simp, fun c hc => ?_⟩
      cases after with
      | nil => exact Option.some.inj hc ▸ hword
      | cons d after => exact hafter c hc
    · exact ⟨as ++ x :: before, after, by simp, hafter⟩

theorem mentions_cons {x : Char} (hpragma : x ∉ flowPragma) (hword : isWord x = false) :
    Mentions (x :: bs) ↔ Mentions bs := by
  have : Mentions ([] ++ x :: bs) ↔ Mentions [] ∨ Mentions bs := mentions_append_cons hpragma hword
  simpa using this

theorem notMem_flowPragma_of_isBlank {c : Char} (hc : isBlank c = true) : c ∉ flowPragma := by
  have hpragma : flowPragma.any isBlank = false := by decide
  intro hmem
  rw [List.any_eq_false] at hpragma
  exact hpragma c hmem hc

/-- In a piece, the pragma stands within the comment. -/
theorem OpeningPiece.mentions_append_iff (h : OpeningPiece (opening ++ rest) piece found) :
    Mentions (piece ++ opening) ↔ (∃ text ∈ found, Mentions text) ∨ Mentions opening := by
  cases h with
  | blank hc =>
    rw [List.singleton_append, mentions_cons (notMem_flowPragma_of_isBlank hc) (Doclet.isWord_of_isBlank hc)]
    simp
  | @line body hbody hrest =>
    have hslashes : Mentions ("//".toList ++ body ++ opening) ↔ Mentions (body ++ opening) :=
      (mentions_cons (by decide) (by decide)).trans (mentions_cons (by decide) (by decide))
    rw [hslashes]
    cases opening with
    | nil => simp
    | cons c opening =>
      obtain rfl := hrest c rfl
      rw [mentions_append_cons (by decide) (by decide), mentions_cons (by decide) (by decide)]
      simp
  | @block body hbody =>
    have hsigns : blockComment body ++ opening = '/' :: '*' :: (body ++ '*' :: '/' :: opening) := by simp [blockComment]
    rw [hsigns, mentions_cons (by decide) (by decide), mentions_cons (by decide) (by decide),
      mentions_append_cons (by decide) (by decide), mentions_cons (by decide) (by decide)]
    simp

/-- In an opening, the pragma stands within a comment. -/
theorem IsOpening.mentions_iff (h : IsOpening rest opening texts) :
    Mentions opening ↔ ∃ text ∈ texts, Mentions text := by
  induction h with
  | nil => simp
  | cons hpiece _ ih => simp only [hpiece.mentions_append_iff, ih, List.mem_append, or_and_right, exists_or]

theorem IsLongestOpening.hasFlowPragma_iff {content : String} (h : IsLongestOpening content.toList opening texts) :
    hasFlowPragma content = true ↔ ∃ text ∈ texts, Mentions text := by
  simp only [hasFlowPragma, h.openingComments_eq, List.any_eq_true, mentionsPragma_iff]

theorem IsLongestOpening.hasFlowPragma_iff_opening {content : String}
    (h : IsLongestOpening content.toList opening texts) : hasFlowPragma content = true ↔ Mentions opening := by
  obtain ⟨_, _, hopening⟩ := h.1
  rw [h.hasFlowPragma_iff, hopening.mentions_iff]

/-- **A file has the pragma if and only if it stands in a comment of the longest opening**, and files with the same
longest opening have it or have it not alike, whatever follows. -/
theorem hasFlowPragma_iff_mentions (content : String) : ∃ opening texts,
    IsLongestOpening content.toList opening texts ∧
    (∀ opening' texts', IsLongestOpening content.toList opening' texts' → opening' = opening ∧ texts' = texts) ∧
    (hasFlowPragma content = true ↔ ∃ text ∈ texts, Mentions text) ∧
    (hasFlowPragma content = true ↔ Mentions opening) ∧
    ∀ (other : String) (texts' : List (List Char)), IsLongestOpening other.toList opening texts' →
      hasFlowPragma other = hasFlowPragma content := by
  obtain ⟨opening, texts, hopening⟩ := exists_isLongestOpening content.toList
  refine ⟨opening, texts, hopening, fun _ _ => hopening.unique, hopening.hasFlowPragma_iff,
    hopening.hasFlowPragma_iff_opening, fun other texts' hother => ?_⟩
  rw [Bool.eq_iff_iff, hother.hasFlowPragma_iff_opening, hopening.hasFlowPragma_iff_opening]

end ComponentDocs

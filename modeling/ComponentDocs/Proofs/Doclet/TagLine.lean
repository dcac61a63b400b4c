import ComponentDocs.Doclet.Basic
import ComponentDocs.Proofs.Text.Trim

/-!
# Tag lines

* `TagLine`: what a tag line is made of: blanks, `@`, a word, and the end or a blank with what follows it;
* **`tagLine?_eq_some_iff`**: the tag lines that are read are these, each with its word and its trimmed rest;
* `isTagLine_trimStart`, `isTagLine_of_trimEnd`: trimming makes no tag line of another line.
-/

namespace ComponentDocs.Doclet

open Text

/-- The line is made of blanks, `@`, the word `tag`, and `rest`, which is empty or starts with a blank. -/
def TagLine (line tag rest : List Char) : Prop :=
  ∃ indent, isBlankLine indent = true ∧ line = indent ++ '@' :: (tag ++ rest) ∧
    tag ≠ [] ∧ (∀ c ∈ tag, isWord c = true) ∧ ∀ c, rest.head? = some c → isBlank c = true

/-- The line is a tag line. -/
def isTagLine (line : List Char) : Bool := (tagLine? line).isSome

/-! ## Words and blanks -/

theorem isWord_of_isBlank {c : Char} (h : isBlank c = true) : isWord c = false := by
  have hcodes : ∀ n ∈ blankCodes, isWord (Char.ofNat n) = false := by decide +kernel
  rw [isBlank, List.contains_iff_mem] at h
  have := hcodes _ h
  rwa [Char.ofNat_toNat] at this

theorem spanWord_append {tag rest : List Char} (htag : ∀ c ∈ tag, isWord c = true)
    (hrest : ∀ c, rest.head? = some c → isBlank c = true) : spanWord (tag ++ rest) = (tag, rest) := by
  have hstop : rest.takeWhile isWord = [] ∧ rest.dropWhile isWord = rest := by
    cases rest with
    | nil => exact ⟨rfl, rfl⟩
    | cons c rest =>
      have hc : ¬ isWord c = true := by rw [isWord_of_isBlank (hrest c rfl)]; decide
      exact ⟨List.takeWhile_cons_of_neg hc, List.dropWhile_cons_of_neg hc⟩
  rw [spanWord, List.takeWhile_append_of_pos htag, List.dropWhile_append_of_pos htag, hstop.1, hstop.2,
    List.append_nil]

/-- What is split off is a word, and nothing is lost. -/
theorem eq_append_of_spanWord {cs word rest : List Char} (h : spanWord cs = (word, rest)) :
    cs = word ++ rest ∧ ∀ c ∈ word, isWord c = true := by
  obtain ⟨rfl, rfl⟩ := Prod.mk.inj h
  exact ⟨List.takeWhile_append_dropWhile.symm, fun c hc => List.mem_takeWhile_imp hc⟩

theorem trimStart_append_at {indent : List Char} (h : isBlankLine indent = true) (rest : List Char) :
    trimStart (indent ++ '@' :: rest) = '@' :: rest := by
  rw [trimStart, List.dropWhile_append_of_pos (isBlankLine_iff.mp h)]
  exact List.dropWhile_cons_of_neg (by decide)

/-! ## Reading -/

theorem tagLine?_of_tagLine {line tag rest : List Char} (h : TagLine line tag rest) :
    tagLine? line = some (tag, trim rest) := by
  obtain ⟨indent, hindent, rfl, hne, htag, hrest⟩ := h
  obtain ⟨first, tag, rfl⟩ := List.exists_cons_of_ne_nil hne
  rw [tagLine?, trimStart_append_at hindent]
  simp only [spanWord_append htag hrest]
  cases rest with
  | nil => rfl
  | cons c rest => exact if_pos (hrest c rfl)

theorem exists_tagLine {line tag value : List Char} (h : tagLine? line = some (tag, value)) :
    ∃ rest, TagLine line tag rest ∧ value = trim rest := by
  obtain ⟨indent, hindent, hline⟩ : ∃ indent, isBlankLine indent = true ∧ line = indent ++ trimStart line :=
    ⟨line.takeWhile isBlank, List.all_takeWhile, List.takeWhile_append_dropWhile.symm⟩
  rw [tagLine?] at h
  split at h
  · next after hat =>
    rw [hat] at hline
    split at h
    · exact absurd h (by simp)
    · next word hne hspan =>
      obtain ⟨rfl, hword⟩ := eq_append_of_spanWord hspan
      obtain ⟨rfl, rfl⟩ := Prod.mk.inj (Option.some.inj h)
      exact ⟨[], ⟨indent, hindent, hline, hne, hword, by simp⟩, rfl⟩
    · next word c rest hne hspan =>
      obtain ⟨rfl, hword⟩ := eq_append_of_spanWord hspan
      split_ifs at h with hc
      obtain ⟨rfl, rfl⟩ := Prod.mk.inj (Option.some.inj h)
      refine ⟨c :: rest, ⟨indent, hindent, hline, hne, hword, fun d hd => ?_⟩, rfl⟩
      rwa [← Option.some.inj hd]
  · exact absurd h (by simp)

/-- **The tag lines that are read are those made of blanks, `@`, a word and a rest.** -/
theorem tagLine?_eq_some_iff {line tag value : List Char} :
    tagLine? line = some (tag, value) ↔ ∃ rest, TagLine line tag rest ∧ value = trim rest := by
  constructor
  · exact exists_tagLine
  · rintro ⟨rest, h, rfl⟩
    exact tagLine?_of_tagLine h

theorem isTagLine_iff {line : List Char} : isTagLine line = true ↔ ∃ tag rest, TagLine line tag rest := by
  rw [isTagLine, Option.isSome_iff_exists]
  constructor
  · rintro ⟨⟨tag, value⟩, h⟩
    obtain ⟨rest, h, -⟩ := exists_tagLine h
    exact ⟨tag, rest, h⟩
  · rintro ⟨tag, rest, h⟩
    exact ⟨_, tagLine?_of_tagLine h⟩

/-! ## Trimming -/

theorem isBlankLine_of_isTagLine {line : List Char} (h : isTagLine line = true) : isBlankLine line = false := by
  obtain ⟨tag, rest, indent, -, rfl, -⟩ := isTagLine_iff.mp h
  rw [isBlankLine_append, isBlankLine_cons, show isBlank '@' = false by decide, Bool.false_and, Bool.and_false]

theorem not_isTagLine_of_isBlankLine {line : List Char} (h : isBlankLine line = true) : isTagLine line = false := by
  rw [← Bool.not_eq_true]
  intro htag
  rw [isBlankLine_of_isTagLine htag] at h
  exact absurd h (by decide)

theorem isTagLine_trimStart (line : List Char) : isTagLine (trimStart line) = isTagLine line := by
  rw [isTagLine, isTagLine, tagLine?, tagLine?, trimStart_trimStart]

theorem isTagLine_of_trimEnd {line : List Char} (h : isTagLine (trimEnd line) = true) :
    isTagLine line = true := by
  obtain ⟨tag, rest, indent, hindent, heq, hne, htag, hrest⟩ := isTagLine_iff.mp h
  obtain ⟨ws, hws, hline⟩ := exists_eq_trimEnd_append line
  refine isTagLine_iff.mpr ⟨tag, rest ++ ws, indent, hindent, ?_, hne, htag, ?_⟩
  · rw [hline, heq, List.append_assoc, List.cons_append, List.append_assoc]
  · intro c hc
    cases rest with
    | nil => exact isBlankLine_iff.mp hws c (List.mem_of_mem_head? hc)
    | cons d rest => exact hrest c hc

end ComponentDocs.Doclet

import ComponentDocs.Proofs.Doclet.TagLine
import ComponentDocs.Proofs.Lists
import ComponentDocs.Proofs.Text.Lines

/-!
# Where the lines of a description go

Every line that is not blank is a tag line, goes on the doclet of a tag line before it, or is prose.

* `docletAt`, `proseAt`: the doclet that a line starts and the prose that a line is, read off its
  neighbours; `docletsOf`, `proseOf`: those of all lines in order;
* `Place`, `GoesTo`: the places a line can go to;
* **`existsUnique_place`**: every line that is not blank goes to exactly one place.
-/

namespace ComponentDocs.Doclet

open Text

/-- The line can go on a doclet: it is neither blank nor a tag line. -/
def goesOn (line : List Char) : Bool := !isBlankLine line && !isTagLine line

/-- The pieces that are not empty, with single spaces between them. -/
def spaced (pieces : List (List Char)) : List Char := join [' '] (pieces.filter fun piece => !piece.isEmpty)

section

variable (lines : List (List Char))

/-- The lines directly after the line at an index, up to the next blank line or tag line. -/
def continuation (i : ℕ) : List (List Char) := (lines.drop (i + 1)).takeWhile goesOn

/-- The doclet of the line at an index, if it is a tag line. -/
def docletAt (i : ℕ) : Option Doclet :=
  (lines[i]?.bind tagLine?).map fun (tag, value) =>
    ⟨String.ofList tag, String.ofList (spaced (value :: (continuation lines i).map trim))⟩

/-- The doclets of the tag lines in order. -/
def docletsOf : List Doclet := (List.range lines.length).filterMap (docletAt lines)

/-- The run of lines that are not blank at the end holds a tag line. -/
def endsInDoclet : Bool := (lines.reverse.takeWhile fun line => !isBlankLine line).any isTagLine

/-- The line at an index, if it is prose: neither blank nor a tag line nor after a tag line in its run of
lines that are not blank. -/
def proseAt (i : ℕ) : Option (List Char) :=
  lines[i]?.filter fun line => goesOn line && !endsInDoclet (lines.take i)

/-- The prose lines in order. -/
def proseOf : List (List Char) := (List.range lines.length).filterMap (proseAt lines)

end

/-- A place for a line. -/
inductive Place where
  /-- The line starts a doclet. -/
  | tag
  /-- The line goes on the doclet of the tag line at an index. -/
  | doclet (tag : ℕ)
  /-- The line stays in the text. -/
  | text
deriving DecidableEq

/-- The line at an index goes to a place. -/
def GoesTo (lines : List (List Char)) (i : ℕ) : Place → Prop
  | .tag => (docletAt lines i).isSome = true
  | .doclet j => (docletAt lines j).isSome = true ∧ j < i ∧ i ≤ j + (continuation lines j).length
  | .text => (proseAt lines i).isSome = true

/-! ## Lines at an index -/

section

variable {lines : List (List Char)} {i j : ℕ}

theorem goesOn_iff {line : List Char} :
    goesOn line = true ↔ isBlankLine line = false ∧ isTagLine line = false := by
  rw [goesOn, Bool.and_eq_true, Bool.not_eq_true', Bool.not_eq_true']

theorem docletAt_isSome_iff :
    (docletAt lines i).isSome = true ↔ ∃ line, lines[i]? = some line ∧ isTagLine line = true := by
  rw [docletAt, Option.isSome_map]
  cases lines[i]? with
  | none => simp
  | some line => simp [isTagLine]

theorem proseAt_isSome_iff : (proseAt lines i).isSome = true ↔
    ∃ line, lines[i]? = some line ∧ goesOn line = true ∧ endsInDoclet (lines.take i) = false := by
  rw [proseAt]
  cases lines[i]? with
  | none => simp
  | some line => simp [Option.filter]

/-- The lines of a continuation are those after its tag line that go on it. -/
theorem le_add_length_continuation_iff (hij : j < i) : i ≤ j + (continuation lines j).length ↔
    ∀ k, j < k → k ≤ i → ∃ line, lines[k]? = some line ∧ goesOn line = true := by
  have hshift : i ≤ j + (continuation lines j).length ↔ i - (j + 1) < (continuation lines j).length := by omega
  rw [hshift, continuation, lt_length_takeWhile_iff]
  simp only [List.getElem?_drop]
  constructor
  · intro h k hjk hki
    have := h (k - (j + 1)) (by omega)
    rwa [Nat.add_sub_cancel' hjk] at this
  · intro h k hk
    exact h (j + 1 + k) (by omega) (by omega)

theorem endsInDoclet_concat (line : List Char) : endsInDoclet (lines ++ [line]) =
    (!isBlankLine line && (isTagLine line || endsInDoclet lines)) := by
  rw [endsInDoclet, List.reverse_concat]
  cases h : isBlankLine line
  · rw [List.takeWhile_cons_of_pos (by rw [h]; rfl)]
    rfl
  · rw [List.takeWhile_cons_of_neg (by rw [h]; decide)]
    rfl

theorem endsInDoclet_take_succ {line : List Char} (h : lines[i]? = some line) : endsInDoclet (lines.take (i + 1)) =
    (!isBlankLine line && (isTagLine line || endsInDoclet (lines.take i))) := by
  rw [take_succ_of_getElem? h, endsInDoclet_concat]

/-- A run of lines that holds a tag line ends with a tag line and lines that go on it. -/
theorem endsInDoclet_take_iff (hi : i ≤ lines.length) : endsInDoclet (lines.take i) = true ↔
    ∃ j < i, (docletAt lines j).isSome = true ∧
      ∀ k, j < k → k < i → ∃ line, lines[k]? = some line ∧ goesOn line = true := by
  induction i with
  | zero =>
    refine iff_of_false (by rw [List.take_zero]; decide) ?_
    rintro ⟨j, hj, -⟩
    omega
  | succ i ih =>
    have hline : lines[i]? = some lines[i] := List.getElem?_eq_getElem hi
    rw [endsInDoclet_take_succ hline, Bool.and_eq_true, Bool.or_eq_true, Bool.not_eq_true', ih (by omega)]
    constructor
    · rintro ⟨hblank, htag | ⟨j, hj, hdoclet, hbetween⟩⟩
      · exact ⟨i, by omega, docletAt_isSome_iff.mpr ⟨_, hline, htag⟩, fun k h1 h2 => by omega⟩
      · by_cases htag : isTagLine lines[i] = true
        · exact ⟨i, by omega, docletAt_isSome_iff.mpr ⟨_, hline, htag⟩, fun k h1 h2 => by omega⟩
        · refine ⟨j, by omega, hdoclet, fun k hjk hki => ?_⟩
          rcases Nat.lt_succ_iff_lt_or_eq.mp hki with hki | rfl
          · exact hbetween k hjk hki
          · exact ⟨_, hline, goesOn_iff.mpr ⟨hblank, Bool.eq_false_iff.mpr htag⟩⟩
    · rintro ⟨j, hj, hdoclet, hbetween⟩
      rcases Nat.lt_succ_iff_lt_or_eq.mp hj with hj | rfl
      · obtain ⟨line, hl, hgoes⟩ := hbetween i hj (by omega)
        rw [hline, Option.some.injEq] at hl
        exact ⟨hl ▸ (goesOn_iff.mp hgoes).1, Or.inr ⟨j, hj, hdoclet, fun k h1 h2 => hbetween k h1 (by omega)⟩⟩
      · obtain ⟨line, hl, htag⟩ := docletAt_isSome_iff.mp hdoclet
        rw [hline, Option.some.injEq] at hl
        exact ⟨hl ▸ isBlankLine_of_isTagLine htag, Or.inl (hl ▸ htag)⟩

end

/-! ## Places -/

section

variable {lines : List (List Char)} {i : ℕ}

theorem goesTo_doclet_iff {j : ℕ} : GoesTo lines i (.doclet j) ↔ (docletAt lines j).isSome = true ∧ j < i ∧
    ∀ k, j < k → k ≤ i → ∃ line, lines[k]? = some line ∧ goesOn line = true := by
  constructor
  · rintro ⟨hdoclet, hij, hle⟩
    exact ⟨hdoclet, hij, (le_add_length_continuation_iff hij).mp hle⟩
  · rintro ⟨hdoclet, hij, hgoes⟩
    exact ⟨hdoclet, hij, (le_add_length_continuation_iff hij).mpr hgoes⟩

theorem not_docletAt_of_goesOn {line : List Char} (hline : lines[i]? = some line) (hgoes : goesOn line = true) :
    ¬ (docletAt lines i).isSome = true := by
  intro h
  obtain ⟨other, hother, htag⟩ := docletAt_isSome_iff.mp h
  rw [hline, Option.some.injEq] at hother
  rw [← hother, (goesOn_iff.mp hgoes).2] at htag
  exact absurd htag (by decide)

/-- A line goes on one doclet at most: a tag line between two others ends the first doclet. -/
theorem goesTo_doclet_unique {j k : ℕ} (hj : GoesTo lines i (.doclet j)) (hk : GoesTo lines i (.doclet k)) :
    j = k := by
  obtain ⟨hj, hji, hjgoes⟩ := goesTo_doclet_iff.mp hj
  obtain ⟨hk, hki, hkgoes⟩ := goesTo_doclet_iff.mp hk
  rcases Nat.lt_trichotomy j k with hlt | heq | hlt
  · obtain ⟨line, hline, hgoes⟩ := hjgoes k hlt (by omega)
    exact absurd hk (not_docletAt_of_goesOn hline hgoes)
  · exact heq
  · obtain ⟨line, hline, hgoes⟩ := hkgoes j hlt (by omega)
    exact absurd hj (not_docletAt_of_goesOn hline hgoes)

theorem exists_place (hi : i < lines.length) (hblank : isBlankLine lines[i] = false) :
    ∃ place, GoesTo lines i place := by
  have hline : lines[i]? = some lines[i] := List.getElem?_eq_getElem hi
  by_cases htag : isTagLine lines[i] = true
  · exact ⟨.tag, docletAt_isSome_iff.mpr ⟨_, hline, htag⟩⟩
  have hgoes : goesOn lines[i] = true := goesOn_iff.mpr ⟨hblank, Bool.eq_false_iff.mpr htag⟩
  by_cases hends : endsInDoclet (lines.take i) = true
  · obtain ⟨j, hji, hdoclet, hbetween⟩ := (endsInDoclet_take_iff hi.le).mp hends
    refine ⟨.doclet j, goesTo_doclet_iff.mpr ⟨hdoclet, hji, fun k hjk hki => ?_⟩⟩
    rcases Nat.lt_or_eq_of_le hki with hki | rfl
    · exact hbetween k hjk hki
    · exact ⟨_, hline, hgoes⟩
  · exact ⟨.text, proseAt_isSome_iff.mpr ⟨_, hline, hgoes, Bool.eq_false_iff.mpr hends⟩⟩

theorem not_text_of_goesTo_doclet {j : ℕ} (hi : i < lines.length) (h : GoesTo lines i (.doclet j)) :
    ¬ GoesTo lines i .text := by
  intro htext
  obtain ⟨line, hline, -, hends⟩ := proseAt_isSome_iff.mp htext
  obtain ⟨hdoclet, hji, hgoes⟩ := goesTo_doclet_iff.mp h
  have hends' := (endsInDoclet_take_iff hi.le).mpr ⟨j, hji, hdoclet, fun k h1 h2 => hgoes k h1 h2.le⟩
  rw [hends] at hends'
  exact absurd hends' (by decide)

theorem not_tag_of_goesTo {place : Place} (hplace : place ≠ .tag) (h : GoesTo lines i place) :
    ¬ GoesTo lines i .tag := by
  cases place with
  | tag => exact absurd rfl hplace
  | doclet j =>
    obtain ⟨-, hji, hgoes⟩ := goesTo_doclet_iff.mp h
    obtain ⟨line, hline, hgoes⟩ := hgoes i hji le_rfl
    exact not_docletAt_of_goesOn hline hgoes
  | text =>
    obtain ⟨line, hline, hgoes, -⟩ := proseAt_isSome_iff.mp h
    exact not_docletAt_of_goesOn hline hgoes

/-- **Every line that is not blank goes to exactly one place.** -/
theorem existsUnique_place (hi : i < lines.length) (hblank : isBlankLine lines[i] = false) :
    ∃! place, GoesTo lines i place := by
  obtain ⟨place, hplace⟩ := exists_place hi hblank
  refine ⟨place, hplace, fun other hother => ?_⟩
  cases place with
  | tag => exact not_not.mp fun hne => not_tag_of_goesTo hne hother hplace
  | doclet j =>
    cases other with
    | tag => exact absurd hother (not_tag_of_goesTo (by simp) hplace)
    | doclet k => rw [goesTo_doclet_unique hother hplace]
    | text => exact absurd hother (not_text_of_goesTo_doclet hi hplace)
  | text =>
    cases other with
    | tag => exact absurd hother (not_tag_of_goesTo (by simp) hplace)
    | doclet k => exact absurd hplace (not_text_of_goesTo_doclet hi hother)
    | text => rfl

end

end ComponentDocs.Doclet

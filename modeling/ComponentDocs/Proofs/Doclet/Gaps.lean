import ComponentDocs.Proofs.Doclet.Description
import Mathlib.Data.List.Chain
import Mathlib.Data.Nat.Find

/-!
# Gaps between paragraphs

Taking doclets out of a description closes up the blank lines around them. Between two prose lines, every block of
doclets takes one blank line with it, but for one that follows the first of the two lines directly.

* `startsBlock`, `countBetween`: blocks of tag lines and the lines that go on them, and how many there are;
* `Gap`: what a pass has kept since a prose line, kept by every line (`Gap.next`);
* `HasGap`, `Spaced`: the blank lines between two lines of a text, and texts without adjacent blank lines;
* **`clean_gaps`**: the blank lines between two prose lines of a cleaned text.
-/

namespace ComponentDocs.Doclet

open Text

/-! ## Blocks -/

section

variable (lines : List (List Char))

/-- The line at an index is blank. -/
def blankAt (i : ℕ) : Bool := lines[i]?.any isBlankLine

/-- The line at an index is a tag line and no line of its run of lines before it is: a block of doclets starts. -/
def startsBlock (i : ℕ) : Bool := lines[i]?.any isTagLine && !endsInDoclet (lines.take i)

/-- The number of indices between two others that satisfy `p`. -/
def countBetween (p : ℕ → Bool) (i j : ℕ) : ℕ := (List.range' (i + 1) (j - (i + 1))).countP p

/-- Two prose lines without a prose line between them. -/
structure ConsecutiveProse (i j : ℕ) (p q : List Char) : Prop where
  lt : i < j
  first : proseAt lines i = some p
  second : proseAt lines j = some q
  between : ∀ m, i < m → m < j → proseAt lines m = none

/-- The first block between two indices starts at `m`. -/
structure FirstBlock (i j m : ℕ) : Prop where
  left : i < m
  right : m < j
  starts : startsBlock lines m = true
  first : countBetween (startsBlock lines) i m = 0

end

/-- The number of blank lines that are left of those between two prose lines: one less for every block of doclets, but for
a block that follows the first prose line directly. -/
structure GapLength (lines : List (List Char)) (i j gap : ℕ) : Prop where
  eq_zero_iff : gap = 0 ↔ countBetween (blankAt lines) i j = 0
  eq_zero_iff_adjacent : gap = 0 ↔ j = i + 1
  of_no_block : countBetween (startsBlock lines) i j = 0 → gap = countBetween (blankAt lines) i j
  exists_firstBlock : 0 < countBetween (startsBlock lines) i j → ∃ m, FirstBlock lines i j m
  firstBlock : ∀ m, FirstBlock lines i j m → blankAt lines (m - 1) = true ∨ m = i + 1
  of_blank : ∀ m, FirstBlock lines i j m → blankAt lines (m - 1) = true →
    gap + countBetween (startsBlock lines) i j = countBetween (blankAt lines) i j
  of_direct : FirstBlock lines i j (i + 1) →
    gap + countBetween (startsBlock lines) i j = countBetween (blankAt lines) i j + 1

theorem countBetween_succ_self (p : ℕ → Bool) (i : ℕ) : countBetween p i (i + 1) = 0 := by
  rw [countBetween, Nat.sub_self]
  rfl

theorem countBetween_succ (p : ℕ → Bool) {i n : ℕ} (h : i < n) :
    countBetween p i (n + 1) = countBetween p i n + (p n).toNat := by
  have hlength : n + 1 - (i + 1) = n - (i + 1) + 1 := by omega
  have hlast : i + 1 + (n - (i + 1)) = n := by omega
  rw [countBetween, hlength, List.range'_1_concat, List.countP_append, hlast, countBetween]
  cases hp : p n <;> simp [hp]

theorem countBetween_eq_zero_iff {p : ℕ → Bool} {i j : ℕ} :
    countBetween p i j = 0 ↔ ∀ m, i < m → m < j → p m = false := by
  rw [countBetween, List.countP_eq_zero]
  simp only [List.mem_range'_1, Bool.not_eq_true]
  exact forall_congr' fun m => ⟨fun h h1 h2 => h (by omega), fun h hm => h (by omega) (by omega)⟩

section

variable {lines : List (List Char)} {i j n : ℕ} {p q line : List Char}

theorem proseAt_eq_some_iff : proseAt lines i = some p ↔
    lines[i]? = some p ∧ goesOn p = true ∧ endsInDoclet (lines.take i) = false := by
  rw [proseAt, Option.filter_eq_some_iff, Bool.and_eq_true, Bool.not_eq_true']

/-! ## One more line -/

theorem scanned_take_succ (hline : lines[n]? = some line) :
    scanned (lines.take (n + 1)) = (scanned (lines.take n)).line line := by
  rw [take_succ_of_getElem? hline, scanned_concat]

theorem countBetween_blankAt_succ (hin : i < n) (hline : lines[n]? = some line) :
    countBetween (blankAt lines) i (n + 1) = countBetween (blankAt lines) i n + (isBlankLine line).toNat := by
  rw [countBetween_succ _ hin, blankAt, hline, Option.any_some]

theorem startsBlock_of_getElem? (hline : lines[n]? = some line) :
    startsBlock lines n = (isTagLine line && !endsInDoclet (lines.take n)) := by
  rw [startsBlock, hline, Option.any_some]

theorem countBetween_startsBlock_succ (hin : i < n) (hline : lines[n]? = some line) :
    countBetween (startsBlock lines) i (n + 1) = countBetween (startsBlock lines) i n +
      (isTagLine line && !endsInDoclet (lines.take n)).toNat := by
  rw [countBetween_succ _ hin, startsBlock_of_getElem? hline]

/-! ## First blocks -/

theorem exists_firstBlock (h : 0 < countBetween (startsBlock lines) i j) : ∃ m, FirstBlock lines i j m := by
  have hblock : ∃ m, i < m ∧ m < j ∧ startsBlock lines m = true := by
    by_contra hnone
    refine Nat.ne_of_gt h (countBetween_eq_zero_iff.mpr fun m h1 h2 => ?_)
    rw [← Bool.not_eq_true]
    exact fun hm => hnone ⟨m, h1, h2, hm⟩
  classical
  obtain ⟨hleft, hright, hstarts⟩ := Nat.find_spec hblock
  refine ⟨Nat.find hblock, hleft, hright, hstarts, countBetween_eq_zero_iff.mpr fun m h1 h2 => ?_⟩
  rw [← Bool.not_eq_true]
  exact fun hm => Nat.find_min hblock h2 ⟨h1, h2.trans hright, hm⟩

theorem endsInDoclet_of_not_prose (hline : lines[n]? = some line) (hprose : proseAt lines n = none)
    (hblank : isBlankLine line = false) (htag : isTagLine line = false) : endsInDoclet (lines.take n) = true := by
  rw [← Bool.not_eq_false]
  intro hends
  rw [proseAt_eq_some_iff.mpr ⟨hline, goesOn_iff.mpr ⟨hblank, htag⟩, hends⟩] at hprose
  exact absurd hprose (by simp)

/-- A block between prose lines starts after the first of them or after a blank line. -/
theorem blankAt_or_of_startsBlock {m : ℕ} (hm : startsBlock lines m = true) (him : i < m)
    (hbetween : ∀ n, i < n → n < m → proseAt lines n = none) : m = i + 1 ∨ blankAt lines (m - 1) = true := by
  obtain ⟨n, rfl⟩ := Nat.exists_eq_succ_of_ne_zero (Nat.ne_zero_of_lt him)
  rw [startsBlock, Bool.and_eq_true, Bool.not_eq_true', Option.any_eq_true] at hm
  obtain ⟨⟨tag, htagline, -⟩, hends⟩ := hm
  by_cases hn : n = i
  · exact .inl (by rw [hn])
  right
  have hlt : n < lines.length := Nat.lt_of_succ_lt (List.getElem?_eq_some_iff.mp htagline).1
  have hline : lines[n]? = some lines[n] := List.getElem?_eq_getElem hlt
  rw [Nat.succ_eq_add_one, endsInDoclet_take_succ hline] at hends
  rw [Nat.succ_sub_one, blankAt, hline]
  change isBlankLine lines[n] = true
  rw [← Bool.not_eq_false]
  intro hblank
  rw [hblank, Bool.not_false, Bool.true_and, Bool.or_eq_false_iff] at hends
  have := endsInDoclet_of_not_prose hline (hbetween n (by omega) (by omega)) hblank hends.1
  rw [hends.2] at this
  exact absurd this (by decide)

end

/-! ## The kept lines -/

theorem Scan.endsBlank_eq (scan : Scan) : scan.endsBlank = scan.kept.head?.all isBlankLine := by
  rw [Scan.endsBlank]
  cases scan.kept <;> rfl

theorem exists_kept_append (lines more : List (List Char)) :
    ∃ later, (scanned (lines ++ more)).kept = later ++ (scanned lines).kept := by
  induction more using List.reverseRecOn with
  | nil => exact ⟨[], by rw [List.append_nil]; rfl⟩
  | append_singleton more line ih =>
    obtain ⟨later, hlater⟩ := ih
    rw [← List.append_assoc, scanned_concat]
    rcases (follows_foldl (lines ++ more)).line_kept_eq_or line with hkept | hkept
    · exact ⟨later, hkept.trans hlater⟩
    · exact ⟨line :: later, by rw [hkept, hlater]; rfl⟩

/-! ## The gap after a prose line -/

/-- What a pass has kept of the lines between the prose line `p` at `i` and the index `n`: blank lines only, one less
for every block that was closed, but for a block right after `p`. -/
structure Gap (lines : List (List Char)) (i : ℕ) (p : List Char) (n : ℕ) (gap : List (List Char)) : Prop where
  kept : (scanned (lines.take n)).kept = gap ++ p :: (scanned (lines.take i)).kept
  blank : ∀ line ∈ gap, isBlankLine line = true
  eq_nil_iff : gap = [] ↔ countBetween (blankAt lines) i n = 0
  length : gap.length + countBetween (startsBlock lines) i n =
    countBetween (blankAt lines) i n + (endsInDoclet (lines.take n)).toNat +
      (startsBlock lines (i + 1) && decide (0 < countBetween (blankAt lines) i n)).toNat
  direct : countBetween (blankAt lines) i n = 0 → endsInDoclet (lines.take n) = true →
    startsBlock lines (i + 1) = true
  adjacent : countBetween (blankAt lines) i n = 0 → endsInDoclet (lines.take n) = false → n = i + 1

section

variable {lines gap : List (List Char)} {i n : ℕ} {p line : List Char}

theorem kept_of_prose (h : proseAt lines i = some p) :
    (scanned (lines.take (i + 1))).kept = p :: (scanned (lines.take i)).kept := by
  obtain ⟨hline, hgoes, hends⟩ := proseAt_eq_some_iff.mp h
  rw [scanned_take_succ hline, Scan.line_kept_of_goesOn (follows_foldl _) hgoes, (follows_foldl _).isOpen, hends]
  rfl

theorem Gap.start (h : proseAt lines i = some p) : Gap lines i p (i + 1) [] := by
  obtain ⟨hline, hgoes, hends⟩ := proseAt_eq_some_iff.mp h
  obtain ⟨hblank, htag⟩ := goesOn_iff.mp hgoes
  have hclosed : endsInDoclet (lines.take (i + 1)) = false := by
    rw [endsInDoclet_take_succ hline, htag, hends, Bool.or_self, Bool.and_false]
  exact {
    kept := kept_of_prose h
    blank := by simp
    eq_nil_iff := iff_of_true rfl (countBetween_succ_self _ i)
    length := by simp [countBetween_succ_self, hclosed]
    direct := fun _ hopen => absurd (hclosed.symm.trans hopen) (by decide)
    adjacent := fun _ _ => rfl }

/-- A tag line opens a block, if none is open. -/
theorem Gap.tag (h : Gap lines i p n gap) (hin : i < n) (hline : lines[n]? = some line)
    (htag : isTagLine line = true) : Gap lines i p (n + 1) gap := by
  have hopen : endsInDoclet (lines.take (n + 1)) = true := by
    rw [endsInDoclet_take_succ hline, isBlankLine_of_isTagLine htag, htag]
    rfl
  have hblanks : countBetween (blankAt lines) i (n + 1) = countBetween (blankAt lines) i n := by
    rw [countBetween_blankAt_succ hin hline, isBlankLine_of_isTagLine htag]
    rfl
  have hlength := h.length
  exact {
    kept := by
      rw [scanned_take_succ hline, Scan.line_kept_of_tag _ htag]
      exact h.kept
    blank := h.blank
    eq_nil_iff := by rw [hblanks]; exact h.eq_nil_iff
    length := by
      rw [hblanks, countBetween_startsBlock_succ hin hline, htag, Bool.true_and, hopen, Bool.toNat_true]
      cases hends : endsInDoclet (lines.take n) <;> simp only [hends, Bool.toNat_false, Bool.toNat_true,
        Bool.not_false, Bool.not_true] at hlength ⊢ <;> omega
    direct := fun hzero _ => by
      rw [hblanks] at hzero
      cases hends : endsInDoclet (lines.take n) with
      | true => exact h.direct hzero hends
      | false => rw [← h.adjacent hzero hends, startsBlock_of_getElem? hline, htag, hends]; rfl
    adjacent := fun _ hclosed => absurd (hopen.symm.trans hclosed) (by decide) }

/-- A line that goes on a doclet changes nothing. -/
theorem Gap.continuation (h : Gap lines i p n gap) (hin : i < n) (hline : lines[n]? = some line)
    (hgoes : goesOn line = true) (hends : endsInDoclet (lines.take n) = true) : Gap lines i p (n + 1) gap := by
  obtain ⟨hblank, htag⟩ := goesOn_iff.mp hgoes
  have hopen : endsInDoclet (lines.take (n + 1)) = endsInDoclet (lines.take n) := by
    rw [endsInDoclet_take_succ hline, hblank, htag, hends]
    rfl
  have hblanks : countBetween (blankAt lines) i (n + 1) = countBetween (blankAt lines) i n := by
    rw [countBetween_blankAt_succ hin hline, hblank]
    rfl
  have hblocks : countBetween (startsBlock lines) i (n + 1) = countBetween (startsBlock lines) i n := by
    rw [countBetween_startsBlock_succ hin hline, htag]
    rfl
  exact {
    kept := by
      rw [scanned_take_succ hline, Scan.line_kept_of_goesOn (follows_foldl _) hgoes, (follows_foldl _).isOpen,
        if_pos hends]
      exact h.kept
    blank := h.blank
    eq_nil_iff := by rw [hblanks]; exact h.eq_nil_iff
    length := by rw [hblanks, hblocks, hopen]; exact h.length
    direct := by rw [hblanks, hopen]; exact h.direct
    adjacent := fun _ hclosed => absurd (hends.symm.trans (hopen.symm.trans hclosed)) (by decide) }

theorem Gap.kept_blankLine (h : Gap lines i p n gap) (hp : isBlankLine p = false) (hline : lines[n]? = some line)
    (hblank : isBlankLine line = true) : (scanned (lines.take (n + 1))).kept =
      (if endsInDoclet (lines.take n) && !gap.isEmpty then gap else line :: gap) ++
        p :: (scanned (lines.take i)).kept := by
  have hendsBlank : (scanned (lines.take n)).endsBlank = !gap.isEmpty := by
    rw [Scan.endsBlank, h.kept]
    cases gap with
    | nil => exact hp
    | cons first gap => exact h.blank first List.mem_cons_self
  rw [scanned_take_succ hline, Scan.line_kept_of_blank _ hblank, (follows_foldl _).isOpen, hendsBlank, h.kept]
  split_ifs <;> rfl

/-- Before the first blank line a block is open if and only if it starts right after `p`. -/
theorem Gap.startsBlock_eq (h : Gap lines i p n gap) (hline : lines[n]? = some line) (htag : isTagLine line = false)
    (hzero : countBetween (blankAt lines) i n = 0) : startsBlock lines (i + 1) = endsInDoclet (lines.take n) := by
  cases hends : endsInDoclet (lines.take n) with
  | true => exact h.direct hzero hends
  | false =>
    rw [← h.adjacent hzero hends, startsBlock_of_getElem? hline, htag]
    rfl

/-- A blank line is kept, unless it closes a block after a blank line. -/
theorem Gap.blankLine (h : Gap lines i p n gap) (hin : i < n) (hp : isBlankLine p = false)
    (hline : lines[n]? = some line) (hblank : isBlankLine line = true) : ∃ gap', Gap lines i p (n + 1) gap' := by
  have htag : isTagLine line = false := not_isTagLine_of_isBlankLine hblank
  have hclosed : endsInDoclet (lines.take (n + 1)) = false := by
    rw [endsInDoclet_take_succ hline, hblank]
    rfl
  have hblanks : countBetween (blankAt lines) i (n + 1) = countBetween (blankAt lines) i n + 1 := by
    rw [countBetween_blankAt_succ hin hline, hblank]
    rfl
  have hblocks : countBetween (startsBlock lines) i (n + 1) = countBetween (startsBlock lines) i n := by
    rw [countBetween_startsBlock_succ hin hline, htag]
    rfl
  have hkept := h.kept_blankLine hp hline hblank
  have hlength := h.length
  cases hdrop : endsInDoclet (lines.take n) && !gap.isEmpty with
  | true =>
    -- the blank line closes a block after a blank line: one block and one blank line more
    rw [hdrop, if_pos rfl] at hkept
    obtain ⟨hends, hfilled⟩ := Bool.and_eq_true_iff.mp hdrop
    have hpos : countBetween (blankAt lines) i n ≠ 0 := by
      rw [Ne, ← h.eq_nil_iff]
      rintro rfl
      exact absurd hfilled (by decide)
    refine ⟨gap, hkept, h.blank, ?_, ?_, fun hzero => ?_, fun hzero => ?_⟩
    · exact iff_of_false (fun hnil => hpos (h.eq_nil_iff.mp hnil)) (by omega)
    · rw [hends, decide_eq_true (Nat.pos_of_ne_zero hpos), Bool.toNat_true] at hlength
      rw [hblanks, hblocks, hclosed, decide_eq_true (Nat.succ_pos _), hlength, Bool.toNat_false, Nat.add_zero]
    · omega
    · omega
  | false =>
    rw [hdrop, if_neg (by decide)] at hkept
    refine ⟨line :: gap, hkept, List.forall_mem_cons.mpr ⟨hblank, h.blank⟩, ?_, ?_, fun hzero => ?_, fun hzero => ?_⟩
    · exact iff_of_false (List.cons_ne_nil _ _) (by omega)
    · rw [hblanks, hblocks, hclosed, decide_eq_true (Nat.succ_pos _), Bool.and_true, List.length_cons, Bool.toNat_false]
      by_cases hzero : countBetween (blankAt lines) i n = 0
      · -- the first blank line after `p`: it closes a block right after `p`, or nothing
        rw [hzero, decide_eq_false (Nat.lt_irrefl 0), Bool.and_false, ← h.startsBlock_eq hline htag hzero,
          Bool.toNat_false] at hlength
        omega
      · have hends : endsInDoclet (lines.take n) = false := by
          rw [Bool.and_eq_false_iff, Bool.not_eq_false', List.isEmpty_iff] at hdrop
          exact hdrop.resolve_right fun hnil => hzero (h.eq_nil_iff.mp hnil)
        rw [hends, decide_eq_true (Nat.pos_of_ne_zero hzero), Bool.and_true, Bool.toNat_false] at hlength
        omega
    · omega
    · omega

/-- **Every line between two prose lines keeps what the pass knows of the gap.** -/
theorem Gap.next (h : Gap lines i p n gap) (hin : i < n) (hp : isBlankLine p = false) (hline : lines[n]? = some line)
    (hprose : proseAt lines n = none) : ∃ gap', Gap lines i p (n + 1) gap' := by
  cases hblank : isBlankLine line with
  | true => exact h.blankLine hin hp hline hblank
  | false =>
    cases htag : isTagLine line with
    | true => exact ⟨gap, h.tag hin hline htag⟩
    | false =>
      exact ⟨gap, h.continuation hin hline (goesOn_iff.mpr ⟨hblank, htag⟩)
        (endsInDoclet_of_not_prose hline hprose hblank htag)⟩

/-- **The gap up to the next prose line.** -/
theorem exists_gap {j : ℕ} {q : List Char} (h : ConsecutiveProse lines i j p q) : ∃ gap, Gap lines i p j gap := by
  have hgap : ∀ n, i < n → n ≤ j → ∃ gap, Gap lines i p n gap := by
    intro n hin
    induction n, hin using Nat.le_induction with
    | base => exact fun _ => ⟨[], Gap.start h.first⟩
    | succ n hin ih =>
      intro hnj
      obtain ⟨gap, hgap⟩ := ih (by omega)
      obtain ⟨hlast, -⟩ := proseAt_eq_some_iff.mp h.second
      have hn : n < lines.length := Nat.lt_of_lt_of_le hnj (List.getElem?_eq_some_iff.mp hlast).1.le
      obtain ⟨-, hgoes, -⟩ := proseAt_eq_some_iff.mp h.first
      exact hgap.next hin (goesOn_iff.mp hgoes).1 (List.getElem?_eq_getElem hn) (h.between n hin (by omega))
  exact hgap j h.lt le_rfl

/-- **The length of the gap between two prose lines.** -/
theorem Gap.lengthBetween {j : ℕ} {q : List Char} (hgap : Gap lines i p j gap) (h : ConsecutiveProse lines i j p q) :
    GapLength lines i j gap.length := by
  obtain ⟨hp, hgoes, -⟩ := proseAt_eq_some_iff.mp h.first
  obtain ⟨-, -, hclosed⟩ := proseAt_eq_some_iff.mp h.second
  have hlength := hgap.length
  rw [hclosed, Bool.toNat_false, Nat.add_zero] at hlength
  have hnil : gap.length = 0 ↔ countBetween (blankAt lines) i j = 0 :=
    List.length_eq_zero_iff.trans hgap.eq_nil_iff
  have hadjacent : gap.length = 0 ↔ j = i + 1 := by
    refine ⟨fun hzero => hgap.adjacent (hnil.mp hzero) hclosed, ?_⟩
    rintro rfl
    exact hnil.mpr (countBetween_succ_self _ i)
  refine ⟨hnil, hadjacent, fun hnone => ?_, exists_firstBlock, ?_, fun m hm hblank => ?_, fun hm => ?_⟩
  · have hdirect : startsBlock lines (i + 1) = false ∨ j = i + 1 := by
      by_cases hj : j = i + 1
      · exact .inr hj
      · have := h.lt
        exact .inl (countBetween_eq_zero_iff.mp hnone (i + 1) (by omega) (by omega))
    rcases hdirect with hdirect | rfl
    · rw [hdirect, Bool.false_and, Bool.toNat_false] at hlength
      omega
    · rw [hadjacent.mpr rfl, countBetween_succ_self]
  · exact fun m hm => (blankAt_or_of_startsBlock hm.starts hm.left fun n h1 h2 => h.between n h1 (h2.trans hm.right)).symm
  · have hdirect : startsBlock lines (i + 1) = false := by
      refine countBetween_eq_zero_iff.mp hm.first (i + 1) (by omega) ?_
      have hne : m ≠ i + 1 := by
        rintro rfl
        rw [Nat.add_sub_cancel, blankAt, hp, Option.any_some, (goesOn_iff.mp hgoes).1] at hblank
        exact absurd hblank (by decide)
      have := hm.left
      omega
    rw [hdirect, Bool.false_and, Bool.toNat_false] at hlength
    exact hlength
  · have hpos : 0 < countBetween (blankAt lines) i j := by
      rw [Nat.pos_iff_ne_zero, Ne, ← hnil, hadjacent]
      have := hm.right
      omega
    rw [hm.starts, decide_eq_true hpos] at hlength
    exact hlength

end

/-! ## Adjacent blank lines -/

/-- No two blank lines are adjacent. -/
def Spaced (lines : List (List Char)) : Prop :=
  lines.IsChain fun first second => (isBlankLine first && isBlankLine second) = false

theorem spaced_iff_map {lines : List (List Char)} :
    Spaced lines ↔ (lines.map isBlankLine).IsChain fun first second => (first && second) = false := by
  rw [List.isChain_map]
  rfl

theorem Spaced.reverse {lines : List (List Char)} (h : Spaced lines) : Spaced lines.reverse := by
  rw [Spaced, List.isChain_reverse]
  exact h.imp fun first second hpair => by rwa [Bool.and_comm]

theorem Spaced.trimEnds_shed {lines : List (List Char)} (h : Spaced lines) : Spaced (trimEnds (shed lines)) := by
  have hinfix : shed lines <:+: lines :=
    (List.rdropWhile_prefix _ _).isInfix.trans (List.dropWhile_suffix _).isInfix
  rw [spaced_iff_map, map_isBlankLine_trimEnds, ← spaced_iff_map]
  exact h.infix hinfix

/-- **A pass keeps no adjacent blank lines**, if it reads none: outside of a block, a kept blank line is followed by a line
that is not blank or was read last. -/
theorem spaced_kept {lines : List (List Char)} (h : Spaced lines) : Spaced (scanned lines).kept ∧
    (endsInDoclet lines = false → ∀ first ∈ (scanned lines).kept.head?, isBlankLine first = true →
      ∃ last ∈ lines.getLast?, isBlankLine last = true) := by
  induction lines using List.reverseRecOn with
  | nil => exact ⟨List.isChain_nil, by simp [Scan.start]⟩
  | append_singleton lines line ih =>
    obtain ⟨hlines, -, hadjacent⟩ := List.isChain_append.mp h
    obtain ⟨hkept, hhead⟩ := ih hlines
    rw [scanned_concat, endsInDoclet_concat, List.getLast?_concat]
    cases htag : isTagLine line with
    | true =>
      rw [Scan.line_kept_of_tag _ htag, isBlankLine_of_isTagLine htag]
      exact ⟨hkept, fun hclosed => absurd hclosed Bool.true_eq_false.mp⟩
    | false =>
      cases hblank : isBlankLine line with
      | true =>
        rw [Scan.line_kept_of_blank _ hblank, (follows_foldl _).isOpen, Scan.endsBlank_eq]
        refine ⟨?_, fun _ _ _ _ => ⟨line, rfl, hblank⟩⟩
        split_ifs with hdrop
        · exact hkept
        · refine List.isChain_cons.mpr ⟨fun first hfirst => ?_, hkept⟩
          rw [hblank, Bool.true_and, ← Bool.not_eq_true]
          intro hblankFirst
          have hclosed : endsInDoclet lines = false := by
            rwa [hfirst, Option.all_some, hblankFirst, Bool.and_true, Bool.not_eq_true] at hdrop
          obtain ⟨last, hlast, hblankLast⟩ := hhead hclosed first hfirst hblankFirst
          have := hadjacent last hlast line rfl
          rw [hblankLast, hblank] at this
          exact absurd this (by decide)
      | false =>
        rw [Scan.line_kept_of_goesOn (follows_foldl _) (goesOn_iff.mpr ⟨hblank, htag⟩), (follows_foldl _).isOpen]
        cases hopen : endsInDoclet lines with
        | true => exact ⟨hkept, fun hclosed => absurd hclosed Bool.true_eq_false.mp⟩
        | false =>
          refine ⟨List.isChain_cons.mpr ⟨fun first _ => by rw [hblank, Bool.false_and], hkept⟩, ?_⟩
          rintro - first ⟨⟩ hfirst
          rw [hblank] at hfirst
          exact absurd hfirst (by decide)

/-! ## The cleaned text -/

/-- The lines at `n` and `n + 1` among those of the text that are not blank are `p` and `q`, up to blanks at their ends,
with `gap` blank lines between them. -/
def HasGap (text : List (List Char)) (n : ℕ) (p q : List Char) (gap : ℕ) : Prop :=
  ∃ front p' blanks q' back, text = front ++ p' :: (blanks ++ q' :: back) ∧ (filled front).length = n ∧
    trim p' = trim p ∧ trim q' = trim q ∧ (∀ line ∈ blanks, isBlankLine line = true) ∧ blanks.length = gap

/-- The gap that a pass has kept is the one in the cleaned text. -/
theorem hasGap_clean {description : String} {i j : ℕ} {p q : List Char} {gap : List (List Char)}
    (h : ConsecutiveProse (splitLines description.toList) i j p q) (hgap : Gap (splitLines description.toList) i p j gap) :
    HasGap (splitLines (clean description).toList) (proseOf ((splitLines description.toList).take i)).length p q
      gap.length := by
  obtain ⟨later, hlater⟩ := exists_kept_append ((splitLines description.toList).take (j + 1))
    ((splitLines description.toList).drop (j + 1))
  rw [List.take_append_drop, kept_of_prose h.second, hgap.kept] at hlater
  have hkept : (scan description.toList).kept.reverse = (scanned ((splitLines description.toList).take i)).kept.reverse ++
      p :: (gap.reverse ++ q :: later.reverse) := by
    rw [scan, hlater]
    simp only [List.reverse_append, List.reverse_cons, List.append_assoc, List.cons_append, List.nil_append]
  obtain ⟨-, hp, -⟩ := proseAt_eq_some_iff.mp h.first
  obtain ⟨-, hq, -⟩ := proseAt_eq_some_iff.mp h.second
  obtain ⟨front, p', q', back, htext, hfront, hp', hq'⟩ := exists_trimEnds_shed (goesOn_iff.mp hp).1 (goesOn_iff.mp hq).1
    (scanned ((splitLines description.toList).take i)).kept.reverse gap.reverse later.reverse
  refine ⟨front, p', gap.reverse, q', back, ?_, ?_, hp', hq', fun line hline => hgap.blank line (List.mem_reverse.mp hline),
    List.length_reverse⟩
  · rw [splitLines_clean, hkept, htext]
  · rw [hfront, (follows_foldl _).filled_kept]

/-- **The gaps of a cleaned text.** The prose lines are the lines that stay, and between two consecutive ones as many
blank lines are left as there were, less one for every block of doclets, but for a block that follows the first prose line
directly. So no paragraphs are merged and no lines set apart, and a text without adjacent blank lines has none when it is
cleaned. -/
theorem clean_gaps (description : String) :
    let lines := splitLines description.toList
    filledLines (clean description).toList = trimEnds (proseOf lines) ∧
    (∀ i j p q, ConsecutiveProse lines i j p q → ∃ gap,
      HasGap (splitLines (clean description).toList) (proseOf (lines.take i)).length p q gap ∧ GapLength lines i j gap) ∧
    (Spaced lines → Spaced (splitLines (clean description).toList)) := by
  intro lines
  refine ⟨filledLines_clean description, fun i j p q h => ?_, fun h => ?_⟩
  · obtain ⟨gap, hgap⟩ := exists_gap h
    exact ⟨gap.length, hasGap_clean h hgap, hgap.lengthBetween h⟩
  · rw [splitLines_clean]
    exact (spaced_kept h).1.reverse.trimEnds_shed

/-- A block between two blank lines takes one of them with it. -/
theorem clean_gaps_deprecated : ∃ gap,
    HasGap (splitLines (clean "Intro.\n\n@deprecated\n\nMore.").toList) 0 "Intro.".toList "More.".toList gap ∧
      gap + 1 = 2 := by
  have hbetween : ∀ m < 4, 0 < m →
      proseAt (splitLines "Intro.\n\n@deprecated\n\nMore.".toList) m = none := by decide +kernel
  obtain ⟨gap, hgap, hlength⟩ := (clean_gaps "Intro.\n\n@deprecated\n\nMore.").2.1 0 4 "Intro.".toList "More.".toList
    ⟨by decide, by decide +kernel, by decide +kernel, fun m h1 h2 => hbetween m h2 h1⟩
  exact ⟨gap, hgap, hlength.of_blank 2 ⟨by decide, by decide, by decide +kernel, by decide +kernel⟩ (by decide +kernel)⟩

end ComponentDocs.Doclet

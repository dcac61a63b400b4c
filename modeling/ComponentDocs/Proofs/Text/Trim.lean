import ComponentDocs.Text.Blank
import Mathlib.Data.List.DropRight

/-!
# Trimmed texts

Trimming takes blanks away and nothing else, and a trimmed text stays as it is.

* `isBlankLine_iff`, `isBlankLine_append`: texts of blanks;
* `trimStart_cons`, `trimEnd_cons`: trimming character by character;
* `exists_eq_trimEnd_append`: a text is its trimmed start and blanks;
* `trimStart_trimEnd`: the two ends are trimmed independently;
* `exists_eq_append_trim`, `isInfix_trim`: a text is its trimmed part between blanks;
* `trim_append_of_blank`, `trim_of_ends`: blanks around a text do not count, and between other characters nothing goes;
* **`trim_trim`**: trimming twice is trimming once.
-/

namespace ComponentDocs.Text

/-! ## Texts of blanks -/

theorem isBlankLine_iff {cs : List Char} : isBlankLine cs = true ↔ ∀ c ∈ cs, isBlank c = true :=
  List.all_eq_true

@[simp] theorem isBlankLine_nil : isBlankLine [] = true := rfl

@[simp] theorem isBlankLine_cons (c : Char) (cs : List Char) :
    isBlankLine (c :: cs) = (isBlank c && isBlankLine cs) := rfl

@[simp] theorem isBlankLine_append (cs ds : List Char) :
    isBlankLine (cs ++ ds) = (isBlankLine cs && isBlankLine ds) := List.all_append

/-! ## The start -/

theorem trimStart_cons (c : Char) (cs : List Char) :
    trimStart (c :: cs) = if isBlank c then trimStart cs else c :: cs := List.dropWhile_cons

theorem isBlankLine_trimStart (cs : List Char) : isBlankLine (trimStart cs) = isBlankLine cs := by
  induction cs with
  | nil => rfl
  | cons c cs ih =>
    rw [trimStart_cons]
    split_ifs with hc
    · rw [ih, isBlankLine_cons, hc, Bool.true_and]
    · rfl

theorem trimStart_trimStart (cs : List Char) : trimStart (trimStart cs) = trimStart cs :=
  List.dropWhile_idempotent isBlank cs

/-! ## The end -/

theorem trimEnd_cons (c : Char) (cs : List Char) :
    trimEnd (c :: cs) = if isBlankLine (c :: cs) then [] else c :: trimEnd cs := by
  have hnil : (cs.reverse.dropWhile isBlank).isEmpty = isBlankLine cs := by
    rw [Bool.eq_iff_iff, List.isEmpty_iff, List.dropWhile_eq_nil_iff, isBlankLine_iff]
    simp only [List.mem_reverse]
  rw [trimEnd, trimEnd, List.reverse_cons, List.dropWhile_append, hnil, isBlankLine_cons]
  by_cases hcs : isBlankLine cs = true
  · rw [if_pos hcs, hcs, Bool.and_true]
    rw [hcs, List.isEmpty_iff] at hnil
    cases hc : isBlank c
    · rw [hnil, List.dropWhile_cons_of_neg (by simp [hc])]
      rfl
    · rw [List.dropWhile_cons_of_pos hc]
      rfl
  · rw [if_neg hcs, Bool.eq_false_iff.mpr hcs, Bool.and_false, List.reverse_append]
    rfl

theorem trimEnd_eq_nil_iff {cs : List Char} : trimEnd cs = [] ↔ isBlankLine cs = true := by
  rw [isBlankLine_iff]
  exact List.rdropWhile_eq_nil_iff

theorem isBlankLine_eq_false_of_trimEnd {cs : List Char} (h : trimEnd cs = cs) (hne : cs ≠ []) :
    isBlankLine cs = false := by
  rw [← Bool.not_eq_true, ← trimEnd_eq_nil_iff, h]
  exact hne

theorem trimEnd_tail {c : Char} {cs : List Char} (h : trimEnd (c :: cs) = c :: cs) : trimEnd cs = cs := by
  rw [trimEnd_cons] at h
  split_ifs at h
  exact (List.cons.inj h).2

theorem trimEnd_singleton_iff {c : Char} : trimEnd [c] = [c] ↔ isBlank c = false := by
  rw [trimEnd_cons, isBlankLine_cons, isBlankLine_nil, Bool.and_true]
  cases isBlank c
  · exact iff_of_true rfl rfl
  · exact iff_of_false (List.cons_ne_nil c []).symm (by decide)

theorem trimEnd_trimEnd (cs : List Char) : trimEnd (trimEnd cs) = trimEnd cs :=
  List.rdropWhile_idempotent isBlank cs

theorem trimEnd_append_of_blank (cs : List Char) {ws : List Char} (hws : isBlankLine ws = true) :
    trimEnd (cs ++ ws) = trimEnd cs := by
  induction cs with
  | nil =>
    rw [List.nil_append, trimEnd_eq_nil_iff.mpr hws]
    rfl
  | cons c cs ih => rw [List.cons_append, trimEnd_cons, trimEnd_cons, ih, ← List.cons_append,
      isBlankLine_append, hws, Bool.and_true]

/-- **A text is its trimmed start and blanks.** -/
theorem exists_eq_trimEnd_append (cs : List Char) :
    ∃ ws, isBlankLine ws = true ∧ cs = trimEnd cs ++ ws := by
  refine ⟨cs.rtakeWhile isBlank, ?_, List.rdropWhile_append_rtakeWhile.symm⟩
  rw [isBlankLine_iff]
  intro c hc
  exact List.mem_rtakeWhile_imp hc

theorem isBlankLine_trimEnd (cs : List Char) : isBlankLine (trimEnd cs) = isBlankLine cs := by
  obtain ⟨ws, hws, heq⟩ := exists_eq_trimEnd_append cs
  conv_rhs => rw [heq]
  rw [isBlankLine_append, hws, Bool.and_true]

/-! ## Both ends -/

theorem trimStart_trimEnd (cs : List Char) : trimStart (trimEnd cs) = trimEnd (trimStart cs) := by
  induction cs with
  | nil => rfl
  | cons c cs ih =>
    rw [trimEnd_cons, trimStart_cons]
    by_cases hc : isBlank c = true
    · rw [if_pos hc, ← ih, isBlankLine_cons, hc, Bool.true_and]
      by_cases hcs : isBlankLine cs = true
      · rw [if_pos hcs, trimEnd_eq_nil_iff.mpr hcs]
      · rw [if_neg hcs, trimStart_cons, if_pos hc]
    · rw [if_neg hc, trimEnd_cons, isBlankLine_cons, Bool.eq_false_iff.mpr hc, Bool.false_and]
      rw [if_neg (by decide), trimStart_cons, if_neg hc]

theorem trim_eq_nil_iff {cs : List Char} : trim cs = [] ↔ isBlankLine cs = true := by
  rw [trim, trimEnd_eq_nil_iff, isBlankLine_trimStart]

theorem trim_trimStart (cs : List Char) : trim (trimStart cs) = trim cs := by
  rw [trim, trim, trimStart_trimStart]

theorem trim_trimEnd (cs : List Char) : trim (trimEnd cs) = trim cs := by
  rw [trim, trim, trimStart_trimEnd, trimEnd_trimEnd]

/-- **Trimming twice is trimming once.** -/
theorem trim_trim (cs : List Char) : trim (trim cs) = trim cs := (trim_trimEnd _).trans (trim_trimStart cs)

theorem exists_eq_append_trim (cs : List Char) : ∃ before after, isBlankLine before = true ∧ isBlankLine after = true ∧
    cs = before ++ trim cs ++ after := by
  obtain ⟨after, hafter, hend⟩ := exists_eq_trimEnd_append (trimStart cs)
  have hstart : cs = cs.takeWhile isBlank ++ trimStart cs := List.takeWhile_append_dropWhile.symm
  refine ⟨cs.takeWhile isBlank, after, List.all_takeWhile, hafter, ?_⟩
  rw [List.append_assoc, trim, ← hend]
  exact hstart

theorem isInfix_trim (cs : List Char) : trim cs <:+: cs := by
  obtain ⟨before, after, -, -, hcs⟩ := exists_eq_append_trim cs
  exact ⟨before, after, hcs.symm⟩

theorem trim_append_of_blank {before after : List Char} (hbefore : isBlankLine before = true)
    (hafter : isBlankLine after = true) (cs : List Char) : trim (before ++ cs ++ after) = trim cs := by
  have hstart : trimStart (before ++ (cs ++ after)) = trimStart (cs ++ after) :=
    List.dropWhile_append_of_pos (isBlankLine_iff.mp hbefore)
  rw [List.append_assoc, trim, hstart, ← trimStart_trimEnd, trimEnd_append_of_blank cs hafter, trimStart_trimEnd, trim]

/-- A text whose ends are not blank is trimmed. -/
theorem trim_of_ends {c d : Char} (hc : isBlank c = false) (hd : isBlank d = false) (cs : List Char) :
    trim (c :: (cs ++ [d])) = c :: (cs ++ [d]) := by
  have hstart : trimStart (c :: (cs ++ [d])) = c :: (cs ++ [d]) := List.dropWhile_cons_of_neg (by simp [hc])
  rw [trim, hstart, ← List.cons_append]
  exact List.rdropWhile_concat_neg _ _ _ (by simp [hd])

end ComponentDocs.Text

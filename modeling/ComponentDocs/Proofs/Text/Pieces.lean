import ComponentDocs.Text.Lines
import Mathlib.Data.List.Basic
import Mathlib.Tactic.SplitIfs

/-!
# Pieces of a text

* `splitAt_cases`: the first piece and the others;
* `splitAt_append_cons`, `length_splitAt`: a separator ends a piece;
* `splitAt_join`: pieces that are joined by a character are found again; `join_splitAt`: joined, they are the text;
* `getElem?_splitAt_count`: the piece at a place of the text;
* `infix_join`, `exists_piece_of_infix`: pieces stand in the joined text, and a text without the separator in one piece.
-/

namespace ComponentDocs.Text

variable {separator : Char}

theorem splitAt_ne_nil (separator : Char) (cs : List Char) : splitAt separator cs ≠ [] := by
  cases cs with
  | nil => simp [splitAt]
  | cons c cs =>
    rw [splitAt]
    split_ifs
    · simp
    · cases splitAt separator cs <;> simp [consLine]

theorem notMem_of_mem_splitAt {cs piece : List Char} (h : piece ∈ splitAt separator cs) : separator ∉ piece := by
  induction cs generalizing piece with
  | nil =>
    rw [splitAt, List.mem_singleton] at h
    simp [h]
  | cons c cs ih =>
    rw [splitAt] at h
    split_ifs at h with hc
    · rcases List.mem_cons.mp h with rfl | h
      · simp
      · exact ih h
    · cases hsplit : splitAt separator cs with
      | nil => exact absurd hsplit (splitAt_ne_nil separator cs)
      | cons first rest =>
        rw [hsplit, consLine] at h
        rcases List.mem_cons.mp h with rfl | h
        · rw [List.mem_cons, not_or]
          exact ⟨Ne.symm hc, ih (hsplit ▸ List.mem_cons_self)⟩
        · exact ih (hsplit ▸ List.mem_cons_of_mem _ h)

theorem splitAt_append_cons (as bs : List Char) :
    splitAt separator (as ++ separator :: bs) = splitAt separator as ++ splitAt separator bs := by
  induction as with
  | nil => simp [splitAt]
  | cons a as ih =>
    rw [List.cons_append, splitAt, splitAt, ih]
    split_ifs
    · rfl
    · cases hsplit : splitAt separator as with
      | nil => exact absurd hsplit (splitAt_ne_nil separator as)
      | cons first rest => rfl

theorem splitAt_of_notMem {cs : List Char} (h : separator ∉ cs) : splitAt separator cs = [cs] := by
  induction cs with
  | nil => rfl
  | cons c cs ih =>
    rw [List.mem_cons, not_or] at h
    rw [splitAt, if_neg (Ne.symm h.1), ih h.2]
    rfl

theorem join_eq_intercalate (cs : List Char) (pieces : List (List Char)) : join cs pieces = cs.intercalate pieces := by
  fun_induction join cs pieces with
  | case1 => rfl
  | case2 piece => simp
  | case3 piece rest hrest ih =>
    cases rest with
    | nil => exact absurd rfl hrest
    | cons next rest => rw [List.intercalate_cons_cons, ih]

theorem infix_join {between piece : List Char} {pieces : List (List Char)} (h : piece ∈ pieces) :
    piece <:+: join between pieces := by
  fun_induction join between pieces with
  | case1 => exact absurd h List.not_mem_nil
  | case2 other => exact (List.mem_singleton.mp h ▸ List.infix_rfl)
  | case3 other rest _ ih =>
    rcases List.mem_cons.mp h with rfl | hrest
    · rw [List.append_assoc]
      exact (List.prefix_append piece _).isInfix
    · exact (ih hrest).trans (List.suffix_append _ _).isInfix

/-- Joined pieces without the separator are found again. -/
theorem splitAt_join {pieces : List (List Char)} (hne : pieces ≠ []) (h : ∀ piece ∈ pieces, separator ∉ piece) :
    splitAt separator (join [separator] pieces) = pieces := by
  fun_induction join [separator] pieces with
  | case1 => exact absurd rfl hne
  | case2 piece => exact splitAt_of_notMem (h piece List.mem_cons_self)
  | case3 piece rest hrest ih =>
    rw [List.append_assoc, List.singleton_append, splitAt_append_cons,
      splitAt_of_notMem (h piece List.mem_cons_self), ih hrest fun other hother => h other (List.mem_cons_of_mem _ hother)]
    rfl

theorem join_splitAt (separator : Char) (cs : List Char) : join [separator] (splitAt separator cs) = cs := by
  induction cs with
  | nil => rfl
  | cons c cs ih =>
    obtain ⟨first, rest, hsplit⟩ := List.exists_cons_of_ne_nil (splitAt_ne_nil separator cs)
    rw [hsplit] at ih
    rw [splitAt, hsplit]
    split_ifs with hc
    · rw [join, ih, hc]
      · rfl
      · simp
    · conv_rhs => rw [← ih]
      cases rest <;> rfl

/-! ## The first piece -/

/-- A text without the separator is its only piece; otherwise the first separator ends the first piece. -/
theorem splitAt_cases (separator : Char) (cs : List Char) : separator ∉ cs ∧ splitAt separator cs = [cs] ∨
    ∃ first rest, separator ∉ first ∧ cs = first ++ separator :: rest ∧
      splitAt separator cs = first :: splitAt separator rest := by
  by_cases h : separator ∈ cs
  · obtain ⟨first, rest, rfl, hfirst⟩ := List.eq_append_cons_of_mem h
    exact .inr ⟨first, rest, hfirst, rfl, by rw [splitAt_append_cons, splitAt_of_notMem hfirst]; rfl⟩
  · exact .inl ⟨h, splitAt_of_notMem h⟩

theorem length_splitAt (separator : Char) (cs : List Char) :
    (splitAt separator cs).length = cs.count separator + 1 := by
  induction cs with
  | nil => rfl
  | cons c cs ih =>
    rw [splitAt]
    by_cases hc : c = separator
    · rw [if_pos hc, hc, List.length_cons, ih, List.count_cons_self]
    · rw [if_neg hc, List.count_cons_of_ne hc]
      cases hsplit : splitAt separator cs with
      | nil => exact absurd hsplit (splitAt_ne_nil separator cs)
      | cons first rest => rw [consLine, List.length_cons, ← ih, hsplit, List.length_cons]

/-- What stands in front of a place since the last separator is the start of the piece at this place. -/
theorem getElem?_splitAt_count {before front after : List Char} (hfront : separator ∉ front)
    (hbefore : before = [] ∨ before.getLast? = some separator) :
    ∃ rest, (splitAt separator (before ++ front ++ after))[before.count separator]? = some (front ++ rest) := by
  have hfirst : ∃ rest, (splitAt separator (front ++ after))[0]? = some (front ++ rest) := by
    rcases splitAt_cases separator (front ++ after) with ⟨-, hsplit⟩ | ⟨first, rest, hfree, hcs, hsplit⟩
    · exact ⟨after, by rw [hsplit]; rfl⟩
    · rw [hsplit]
      obtain ⟨more, rfl, -⟩ | ⟨more, rfl, hmore⟩ := List.append_eq_append_iff.mp hcs
      · exact ⟨more, rfl⟩
      · cases more with
        | nil => exact ⟨[], by simp⟩
        | cons c more =>
          obtain rfl : separator = c := (List.cons.inj hmore).1
          simp at hfront
  rcases hbefore with rfl | hlast
  · simpa using hfirst
  · obtain ⟨init, rfl⟩ := List.getLast?_eq_some_iff.mp hlast
    have hcount : (init ++ [separator]).count separator = (splitAt separator init).length := by
      rw [length_splitAt, List.count_append, List.count_singleton_self]
    rw [hcount, List.append_assoc, List.append_assoc, List.singleton_append, splitAt_append_cons,
      List.getElem?_append_right (Nat.le_refl _), Nat.sub_self]
    exact hfirst

/-- **What stands in a text and has no separator stands in one of its pieces.** -/
theorem exists_piece_of_infix {part cs : List Char} (hpart : separator ∉ part) (h : part <:+: cs) :
    ∃ piece ∈ splitAt separator cs, part <:+: piece := by
  obtain ⟨before, after, rfl⟩ := h
  induction before with
  | nil =>
    have hfirst : ∃ rest, (splitAt separator ([] ++ part ++ after))[0]? = some (part ++ rest) :=
      getElem?_splitAt_count hpart (.inl rfl)
    obtain ⟨rest, hpiece⟩ := hfirst
    exact ⟨part ++ rest, List.mem_of_getElem? hpiece, (List.prefix_append part rest).isInfix⟩
  | cons c before ih =>
    obtain ⟨piece, hpiece, hinfix⟩ := ih
    rw [List.cons_append, List.cons_append, splitAt]
    split_ifs
    · exact ⟨piece, List.mem_cons_of_mem _ hpiece, hinfix⟩
    · obtain ⟨first, others, hsplit⟩ := List.exists_cons_of_ne_nil (splitAt_ne_nil separator (before ++ part ++ after))
      rw [hsplit] at hpiece ⊢
      rcases List.mem_cons.mp hpiece with rfl | hpiece
      · exact ⟨c :: piece, List.mem_cons_self, List.infix_cons hinfix⟩
      · exact ⟨piece, List.mem_cons_of_mem _ hpiece, hinfix⟩

end ComponentDocs.Text

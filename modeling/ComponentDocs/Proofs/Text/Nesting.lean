import ComponentDocs.Proofs.Text.Pieces
import ComponentDocs.Proofs.Text.Trim

/-!
# Nested brackets

Braces and parentheses match each other if every closing one closes the last one that is open.

* `WellNested`: the braces and parentheses of a text match each other;
* `closesAll`: reading a text with the closing brackets that are still to come;
* **`wellNested_iff_closesAll`**: the reading decides whether the brackets match;
* `wellNested_congr`, `wellNested_trim`: nothing but the brackets of a text counts;
* `wellNested_of_pieces`: pieces with matching brackets make up a text with matching brackets;
* `Encloses`: the first and the last character are brackets that match each other.
-/

namespace ComponentDocs.Text

/-! ## Brackets -/

/-- The bracket that closes an opening one. -/
def closing? (c : Char) : Option Char :=
  if c = '\x7b' then some '\x7d' else if c = '(' then some ')' else none

def isClosing (c : Char) : Bool := c == '\x7d' || c == ')'

/-- A brace or a parenthesis. -/
def isBracket (c : Char) : Bool := (closing? c).isSome || isClosing c

/-- The braces and parentheses of the text match each other. -/
inductive WellNested : List Char → Prop
  | nil : WellNested []
  | plain {c : Char} {cs : List Char} : isBracket c = false → WellNested cs → WellNested (c :: cs)
  | pair {left right : Char} {inner rest : List Char} : closing? left = some right → WellNested inner →
      WellNested rest → WellNested (left :: (inner ++ right :: rest))

/-- A text between two brackets that match each other. -/
def Encloses (left right : Char) (cs inner : List Char) : Prop := cs = left :: (inner ++ [right]) ∧ WellNested inner

variable {c left right : Char} {cs ds pending : List Char}

theorem closing?_eq_some_iff : closing? left = some right ↔ left = '\x7b' ∧ right = '\x7d' ∨ left = '(' ∧ right = ')' := by
  unfold closing?
  split_ifs with hbrace hparen
  · simp [hbrace, eq_comm]
  · simp [hparen, eq_comm]
  · simp [hbrace, hparen]

theorem isBracket_iff : isBracket c = true ↔ c = '\x7b' ∨ c = '\x7d' ∨ c = '(' ∨ c = ')' := by
  simp only [isBracket, isClosing, closing?, Bool.or_eq_true, beq_iff_eq]
  split_ifs with hbrace hparen <;> simp [*]

theorem not_isBracket_of_isBlank (h : isBlank c = true) : isBracket c = false := by
  rw [← Bool.not_eq_true, isBracket_iff]
  rintro (rfl | rfl | rfl | rfl) <;> revert h <;> decide

/-! ## Reading -/

/-- The brackets of the text close the pending ones, innermost first, and those that are opened meanwhile. -/
def closesAll : List Char → List Char → Bool
  | pending, [] => pending.isEmpty
  | pending, c :: cs =>
    match closing? c with
    | some right => closesAll (right :: pending) cs
    | none => if isClosing c then pending.head? == some c && closesAll pending.tail cs else closesAll pending cs

theorem closesAll_cons_left (h : closing? left = some right) (pending cs : List Char) :
    closesAll pending (left :: cs) = closesAll (right :: pending) cs := by
  rw [closesAll, h]

theorem closesAll_cons_plain (h : isBracket c = false) (pending cs : List Char) :
    closesAll pending (c :: cs) = closesAll pending cs := by
  rw [isBracket, Bool.or_eq_false_iff, Option.isSome_eq_false_iff, Option.isNone_iff_eq_none] at h
  rw [closesAll, h.1, h.2]
  rfl

theorem closesAll_cons_right (h : closing? left = some right) (outer cs : List Char) :
    closesAll (right :: outer) (right :: cs) = closesAll outer cs := by
  rcases closing?_eq_some_iff.mp h with ⟨-, rfl⟩ | ⟨-, rfl⟩ <;> simp [closesAll, closing?, isClosing]

/-- Matching brackets leave the pending ones as they are. -/
theorem WellNested.closesAll_append (h : WellNested cs) (pending rest : List Char) :
    closesAll pending (cs ++ rest) = closesAll pending rest := by
  induction h generalizing pending rest with
  | nil => rfl
  | plain hc _ ih => rw [List.cons_append, closesAll_cons_plain hc, ih]
  | pair hpair _ _ ihinner ihrest =>
    rw [List.cons_append, List.append_assoc, closesAll_cons_left hpair, ihinner, List.cons_append,
      closesAll_cons_right hpair, ihrest]

/-- The text closes the pending brackets in order, with matching brackets before each of them and after the last. -/
def Closes : List Char → List Char → Prop
  | [], cs => WellNested cs
  | right :: outer, cs => ∃ inner rest, WellNested inner ∧ cs = inner ++ right :: rest ∧ Closes outer rest

theorem Closes.plain (hc : isBracket c = false) (h : Closes pending cs) : Closes pending (c :: cs) := by
  cases pending with
  | nil => exact WellNested.plain hc h
  | cons right outer =>
    obtain ⟨inner, rest, hinner, rfl, hrest⟩ := h
    exact ⟨c :: inner, rest, hinner.plain hc, rfl, hrest⟩

theorem Closes.pair (hpair : closing? left = some right) (hcs : WellNested cs) (h : Closes pending ds) :
    Closes pending (left :: (cs ++ right :: ds)) := by
  cases pending with
  | nil => exact WellNested.pair hpair hcs h
  | cons last outer =>
    obtain ⟨inner, rest, hinner, rfl, hrest⟩ := h
    exact ⟨left :: (cs ++ right :: inner), rest, hcs.pair hpair hinner, by simp, hrest⟩

theorem closes_of_closesAll (h : closesAll pending cs = true) : Closes pending cs := by
  induction cs generalizing pending with
  | nil =>
    rw [closesAll, List.isEmpty_iff] at h
    rw [h]
    exact WellNested.nil
  | cons c cs ih =>
    cases hc : closing? c with
    | some right =>
      rw [closesAll_cons_left hc] at h
      obtain ⟨inner, rest, hinner, rfl, hrest⟩ := ih h
      exact hrest.pair hc hinner
    | none =>
      cases hclosing : isClosing c with
      | false =>
        have hplain : isBracket c = false := by rw [isBracket, hc, hclosing]; rfl
        rw [closesAll_cons_plain hplain] at h
        exact (ih h).plain hplain
      | true =>
        simp only [closesAll, hc, hclosing, if_true, Bool.and_eq_true, beq_iff_eq] at h
        obtain ⟨outer, rfl⟩ := List.head?_eq_some_iff.mp h.1
        exact ⟨[], cs, .nil, rfl, ih h.2⟩

/-- **The reading decides whether the brackets match.** -/
theorem wellNested_iff_closesAll : WellNested cs ↔ closesAll [] cs = true := by
  refine ⟨fun h => ?_, fun h => closes_of_closesAll h⟩
  rw [← List.append_nil cs, h.closesAll_append]
  rfl

instance : DecidablePred WellNested := fun _ => decidable_of_iff _ wellNested_iff_closesAll.symm

/-! ## Other characters -/

theorem closesAll_filter (pending cs : List Char) : closesAll pending (cs.filter isBracket) = closesAll pending cs := by
  induction cs generalizing pending with
  | nil => rfl
  | cons c cs ih =>
    cases hc : isBracket c with
    | false => rw [List.filter_cons_of_neg (by simp [hc]), closesAll_cons_plain hc, ih]
    | true =>
      rw [List.filter_cons_of_pos hc]
      simp only [closesAll, ih]

/-- **Nothing but the brackets counts.** -/
theorem wellNested_congr (h : cs.filter isBracket = ds.filter isBracket) : WellNested cs ↔ WellNested ds := by
  rw [wellNested_iff_closesAll, wellNested_iff_closesAll, ← closesAll_filter, h, closesAll_filter]

theorem wellNested_of_plain (h : ∀ c ∈ cs, isBracket c = false) : WellNested cs := by
  induction cs with
  | nil => exact .nil
  | cons c cs ih =>
    rw [List.forall_mem_cons] at h
    exact .plain h.1 (ih h.2)

theorem filter_isBracket_of_blank (h : isBlankLine cs = true) : cs.filter isBracket = [] := by
  rw [List.filter_eq_nil_iff]
  intro c hc
  rw [not_isBracket_of_isBlank (isBlankLine_iff.mp h c hc)]
  decide

theorem wellNested_trim (cs : List Char) : WellNested (trim cs) ↔ WellNested cs := by
  obtain ⟨before, after, hbefore, hafter, hcs⟩ := exists_eq_append_trim cs
  refine wellNested_congr ?_
  conv_rhs => rw [hcs]
  rw [List.filter_append, List.filter_append, filter_isBracket_of_blank hbefore, filter_isBracket_of_blank hafter,
    List.nil_append, List.append_nil]

/-! ## Matching brackets put together -/

theorem WellNested.append (hcs : WellNested cs) (hds : WellNested ds) : WellNested (cs ++ ds) := by
  rw [wellNested_iff_closesAll, hcs.closesAll_append]
  exact wellNested_iff_closesAll.mp hds

theorem Encloses.wellNested (hpair : closing? left = some right) (h : Encloses left right cs ds) : WellNested cs := by
  rw [h.1]
  exact .pair hpair h.2 .nil

theorem wellNested_join {separator : Char} (hseparator : isBracket separator = false) {pieces : List (List Char)}
    (h : ∀ piece ∈ pieces, WellNested piece) : WellNested (join [separator] pieces) := by
  fun_induction join [separator] pieces with
  | case1 => exact .nil
  | case2 piece => exact h piece List.mem_cons_self
  | case3 piece rest _ ih =>
    have hrest := ih fun other hother => h other (List.mem_cons_of_mem _ hother)
    rw [List.append_assoc]
    exact (h piece List.mem_cons_self).append (hrest.plain hseparator)

/-- Pieces with matching brackets make up a text with matching brackets. -/
theorem wellNested_of_pieces {separator : Char} (hseparator : isBracket separator = false)
    (h : ∀ piece ∈ splitAt separator cs, WellNested piece) : WellNested cs := by
  rw [← join_splitAt separator cs]
  exact wellNested_join hseparator h

theorem WellNested.count_eq (h : WellNested cs) : cs.count '\x7b' = cs.count '\x7d' ∧ cs.count '(' = cs.count ')' := by
  induction h with
  | nil => exact ⟨rfl, rfl⟩
  | plain hc _ ih =>
    rw [← Bool.not_eq_true, isBracket_iff] at hc
    push Not at hc
    simp only [List.count_cons_of_ne, ne_eq, hc, not_false_eq_true, ih, and_self]
  | pair hpair _ _ ihinner ihrest =>
    rcases closing?_eq_some_iff.mp hpair with ⟨rfl, rfl⟩ | ⟨rfl, rfl⟩ <;>
      simp only [List.count_cons, List.count_append] <;> simp <;> omega

end ComponentDocs.Text

import ComponentDocs.Component.Name
import ComponentDocs.Documentation.Handler
import Mathlib.Data.List.Basic
import Mathlib.Tactic.SplitIfs

/-!
# Names are not empty

* `Text.capitalize_eq_nil_iff`, `joinWordsFrom_ne_nil`: capitals and joined words leave something over;
* `Path.splitExtension_ne_empty`: a path keeps something without its extension;
* `inferName_ne_empty`: the name for a file is not empty if its own name is not;
* `Handler.nameOf_ne_empty`: neither is the name of a component.
-/

namespace ComponentDocs

/-! ## Letters and words -/

theorem Text.upperChar_ne_nil (c : Char) : Text.upperChar c ≠ [] := by
  unfold upperChar
  split_ifs
  · exact List.cons_ne_nil _ _
  · split
    · rename_i codes hlookup
      obtain ⟨before, after, hentry, -⟩ := List.lookup_eq_some_iff.mp hlookup
      have htable : ∀ entry ∈ upperLong, entry.2 ≠ [] := by decide
      have hcodes : codes ≠ [] := htable (c.toNat, codes) (by rw [hentry]; simp)
      exact fun h => hcodes (List.map_eq_nil_iff.mp h)
    · exact List.cons_ne_nil _ _

theorem Text.capitalize_eq_nil_iff {cs : List Char} : Text.capitalize cs = [] ↔ cs = [] := by
  cases cs with
  | nil => exact Iff.rfl
  | cons c cs => exact iff_of_false (List.append_ne_nil_of_left_ne_nil (upperChar_ne_nil c) _) (List.cons_ne_nil _ _)

theorem looseBreaks_ne_nil {breaks : List Char} (h : breaks ≠ []) : looseBreaks breaks ≠ [] := by
  unfold looseBreaks
  dsimp only
  split
  · exact List.cons_ne_nil _ _
  · exact List.reverse_ne_nil_iff.mpr h

theorem joinWordsFrom_ne_nil {breaks cs : List Char} (h : breaks ≠ [] ∨ cs ≠ []) : joinWordsFrom breaks cs ≠ [] := by
  induction cs generalizing breaks with
  | nil => exact looseBreaks_ne_nil (h.resolve_right (not_not.mpr rfl))
  | cons c rest ih =>
    rw [joinWordsFrom]
    split_ifs with hbreak hnone hword
    · exact ih (Or.inl (List.cons_ne_nil _ _))
    · exact List.cons_ne_nil _ _
    · exact List.append_ne_nil_of_left_ne_nil (Text.upperChar_ne_nil c) _
    · exact List.append_ne_nil_of_right_ne_nil _ (List.cons_ne_nil _ _)

/-! ## Files -/

theorem Path.splitExtension_ne_empty {path : String} (h : path ≠ "") : (Path.splitExtension path).1 ≠ "" := by
  unfold splitExtension
  dsimp only
  split
  · rename_i stem hdrop
    split_ifs with hdots
    · exact h
    · rw [Ne, String.ofList_eq_empty_iff]
      refine fun hnil => hdots ?_
      -- Nothing before the extension leaves nothing of the name before its dot either.
      have hname := (List.takeWhile_sublist (l := path.toList.reverse) (· ≠ '/')).length_le
      have hlength := congrArg List.length hdrop
      have hshort := congrArg List.length hnil
      simp only [List.length_drop, List.length_cons, List.length_reverse, List.length_nil] at hlength hshort
      have hstem : stem.length = 0 := by
        simp only [List.length_reverse] at hname
        omega
      rw [List.length_eq_zero_iff.mp hstem]
      rfl
  · exact h

/-- The name for a file is not empty if the file has a name. -/
theorem inferName_ne_empty {path : String} (h : (Path.splitExtension (Path.baseName path)).1 ≠ "") :
    inferName path ≠ "" := by
  have hstem : fileStem path ≠ "" := by
    unfold fileStem
    dsimp only
    split_ifs with hindex
    · exact hindex.2
    · exact h
  have hchars : (fileStem path).toList ≠ [] := fun hnil => hstem (String.toList_inj.mp hnil)
  have hjoined : joinWords (fileStem path).toList ≠ [] := joinWordsFrom_ne_nil (Or.inr hchars)
  intro hempty
  rw [inferName, String.ofList_eq_empty_iff, Text.capitalize_eq_nil_iff] at hempty
  exact hjoined hempty

/-! ## Components -/

theorem Handler.nameOf_ne_empty {path : String} (h : (Path.splitExtension (Path.baseName path)).1 ≠ "")
    (src : SourceFile) (definition : Definition) : Handler.nameOf path src definition ≠ "" := by
  unfold Handler.nameOf
  dsimp only
  cases hnames : [explicitName? src definition, definition.name, definition.ownName src].findSome?
      (·.bind Method.nonEmpty?) with
  | none => exact inferName_ne_empty h
  | some name =>
    obtain ⟨source, -, hsource⟩ := List.exists_of_findSome?_eq_some hnames
    obtain ⟨text, -, htext⟩ := Option.bind_eq_some_iff.mp hsource
    unfold Method.nonEmpty? at htext
    split_ifs at htext with hempty
    rw [Option.getD_some, ← Option.some.inj htext]
    exact hempty

end ComponentDocs

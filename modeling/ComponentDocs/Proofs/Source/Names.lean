import ComponentDocs.Proofs.Tree.Order
import Mathlib.Tactic.SplitIfs

/-!
# What names stand for

An expression leads on: out of its parentheses, and from a name to the value that its last declarator gives it.

* `SourceFile.LastValue`: the value that the last declarator of a name gives it;
* `SourceFile.BindingChain`: the expressions on the way, with the number of names replaced so far;
* `SourceFile.IsChainEnd`: the way goes no further;
* `BindingChain.eq_of_isChainEnd`: it goes to one end.
-/

namespace ComponentDocs

open Cursor

/-! ## Parentheses -/

namespace Cursor

/-- Nothing is left to drop: the expression is in no parentheses, or in empty ones. -/
def IsBare (c : Cursor) : Prop := c.kind = "parenthesized_expression" → c.namedChildren = []

theorem unwrapFirst_eq (outer : Node) (ancestors nodes : List Node) : unwrapFirst outer ancestors nodes =
    match (nodes.filter (·.named)).map (enter ⟨outer, ancestors⟩) with
    | [] => ⟨outer, ancestors⟩
    | inner :: _ => inner.unwrapParens := by
  induction nodes with
  | nil => rfl
  | cons node rest ih =>
    rw [unwrapFirst]
    cases hnamed : node.named with
    | true => rw [if_pos rfl, List.filter_cons_of_pos hnamed]; rfl
    | false => rw [if_neg Bool.false_ne_true, List.filter_cons_of_neg (by simp [hnamed]), ih]

variable {c inner : Cursor}

theorem unwrapParens_of_kind (h : c.kind ≠ "parenthesized_expression") : c.unwrapParens = c := by
  obtain ⟨⟨kind, named, missing, field, start, stop, children⟩, ancestors⟩ := c
  exact (unwrapParensFrom.eq_1 ..).trans (if_neg h)

theorem unwrapParens_of_paren (hkind : c.kind = "parenthesized_expression") :
    c.unwrapParens = match c.namedChildren with
      | [] => c
      | inner :: _ => inner.unwrapParens := by
  obtain ⟨⟨kind, named, missing, field, start, stop, children⟩, ancestors⟩ := c
  exact ((unwrapParensFrom.eq_1 ..).trans (if_pos hkind)).trans (unwrapFirst_eq ..)

theorem IsBare.unwrapParens_eq (h : c.IsBare) : c.unwrapParens = c := by
  by_cases hkind : c.kind = "parenthesized_expression"
  · rw [unwrapParens_of_paren hkind, h hkind]
  · exact unwrapParens_of_kind hkind

theorem unwrapParens_of_head? (hkind : c.kind = "parenthesized_expression") (hinner : c.namedChildren.head? = some inner) :
    c.unwrapParens = inner.unwrapParens := by
  obtain ⟨rest, hrest⟩ := List.head?_eq_some_iff.mp hinner
  rw [unwrapParens_of_paren hkind, hrest]

theorem exists_child_of_head? (hinner : c.namedChildren.head? = some inner) :
    ∃ child ∈ c.node.children, inner = c.enter child := by
  obtain ⟨child, hchild, rfl⟩ := List.mem_map.mp (List.mem_of_mem_head? hinner)
  exact ⟨child, (List.mem_filter.mp hchild).1, rfl⟩

end Cursor

/-! ## The way to a value -/

namespace SourceFile

variable {src : SourceFile} {c d e value : Cursor} {name : String} {count more : ℕ}

variable (src) in
/-- The value that the last declarator of a name at the top level gives it. -/
def LastValue (name : String) (value : Cursor) : Prop :=
  ∃ before declarator after, src.topLevel.flatMap declarators = before ++ declarator :: after ∧
    src.fieldIs declarator.node "name" name = true ∧ (∀ later ∈ after, src.fieldIs later.node "name" name = false) ∧
    declarator.child? "value" = some value

/-- **A variable has the value that its last declarator gives it.** -/
theorem findVariable_eq_some_iff : src.findVariable name = some value ↔ src.LastValue name value := by
  rw [findVariable, Option.bind_eq_some_iff]
  simp only [declarator?, List.find?_eq_some_iff_append]
  constructor
  · rintro ⟨declarator, ⟨hname, after, before, hsplit, hafter⟩, hvalue⟩
    refine ⟨before.reverse, declarator, after.reverse, ?_, hname, fun later hlater => ?_, hvalue⟩
    · rw [← List.reverse_reverse (src.topLevel.flatMap declarators), hsplit]
      simp
    · simpa using hafter later (List.mem_reverse.mp hlater)
  · rintro ⟨before, declarator, after, hsplit, hname, hafter, hvalue⟩
    refine ⟨declarator, ⟨hname, after.reverse, before.reverse, by rw [hsplit]; simp, fun later hlater => ?_⟩, hvalue⟩
    simpa using hafter later (List.mem_reverse.mp hlater)

theorem LastValue.eq {other : Cursor} (h : src.LastValue name value) (hother : src.LastValue name other) :
    value = other :=
  Option.some.inj ((findVariable_eq_some_iff.mpr h).symm.trans (findVariable_eq_some_iff.mpr hother))

variable (src) in
/-- The second expression lies on the way of the first one, where parentheses are dropped, down to their first named
child, and `count` names are replaced by the values that their last declarators give them. -/
inductive BindingChain : ℕ → Cursor → Cursor → Prop
  | here (c : Cursor) : BindingChain 0 c c
  | parens {count : ℕ} {c inner d : Cursor} (hkind : c.kind = "parenthesized_expression")
      (hinner : c.namedChildren.head? = some inner) (h : BindingChain count inner d) : BindingChain count c d
  | name {count : ℕ} {c value d : Cursor} (hkind : c.kind = "identifier") (hvalue : src.LastValue (src.text c.node) value)
      (h : BindingChain count value d) : BindingChain (count + 1) c d

variable (src) in
/-- The way goes no further: there are no parentheses to drop, and no name or one without a value. -/
def IsChainEnd (c : Cursor) : Prop :=
  c.IsBare ∧ (c.kind = "identifier" → ∀ value, ¬ src.LastValue (src.text c.node) value)

theorem BindingChain.trans (h : src.BindingChain count c d) (hmore : src.BindingChain more d e) :
    src.BindingChain (count + more) c e := by
  induction h with
  | here c => rwa [Nat.zero_add]
  | parens hkind hinner _ ih => exact .parens hkind hinner (ih hmore)
  | name hkind hvalue _ ih =>
    rw [Nat.add_right_comm]
    exact .name hkind hvalue (ih hmore)

theorem isChainEnd_of_kind (hparens : c.kind ≠ "parenthesized_expression") (hname : c.kind ≠ "identifier") :
    src.IsChainEnd c := ⟨fun hkind => absurd hkind hparens, fun hkind => absurd hkind hname⟩

theorem IsChainEnd.head?_ne (h : src.IsChainEnd c) (hkind : c.kind = "parenthesized_expression") :
    c.namedChildren.head? ≠ some d := by
  rw [h.1 hkind]
  exact Option.some_ne_none d ∘ Eq.symm

/-- **All ways from an expression have one end.** -/
theorem BindingChain.eq_of_isChainEnd (h : src.BindingChain count c d) (hd : src.IsChainEnd d)
    (hmore : src.BindingChain more c e) (he : src.IsChainEnd e) : d = e := by
  induction h generalizing more with
  | here c =>
    cases hmore with
    | here => rfl
    | parens hkind hinner => exact absurd hinner (hd.head?_ne hkind)
    | name hkind hvalue => exact absurd hvalue (hd.2 hkind _)
  | parens hkind hinner _ ih =>
    cases hmore with
    | here => exact absurd hinner (he.head?_ne hkind)
    | parens _ hother hmore =>
      obtain rfl := Option.some.inj (hinner.symm.trans hother)
      exact ih hd hmore
    | name hname =>
      rw [hkind] at hname
      exact absurd hname (by decide)
  | name hkind hvalue _ ih =>
    cases hmore with
    | here => exact absurd hvalue (he.2 hkind _)
    | parens hparens =>
      rw [hkind] at hparens
      exact absurd hparens (by decide)
    | name _ hother hmore =>
      obtain rfl := hvalue.eq hother
      exact ih hd hmore

theorem BindingChain.mem_walk (h : src.BindingChain count c d) (hc : c ∈ src.top.walk) : d ∈ src.top.walk := by
  induction h with
  | here c => exact hc
  | parens _ hinner _ ih => exact ih (Cursor.namedChildren_subset_walk hc (List.mem_of_mem_head? hinner))
  | name _ hvalue _ ih => exact ih (findVariable_mem_walk (findVariable_eq_some_iff.mpr hvalue))

variable (src) in
/-- Dropping all parentheses is a way without names. -/
theorem chain_unwrapParens (c : Cursor) : src.BindingChain 0 c c.unwrapParens ∧ c.unwrapParens.IsBare := by
  obtain ⟨node, ancestors⟩ := c
  induction node using Node.induction generalizing ancestors with
  | step node ih =>
    by_cases hbare : (⟨node, ancestors⟩ : Cursor).IsBare
    · rw [hbare.unwrapParens_eq]
      exact ⟨.here _, hbare⟩
    · obtain ⟨hkind, hne⟩ := Classical.not_imp.mp hbare
      obtain ⟨inner, hinner⟩ := Option.ne_none_iff_exists'.mp (mt List.head?_eq_none_iff.mp hne)
      obtain ⟨child, hchild, rfl⟩ := exists_child_of_head? hinner
      obtain ⟨hchain, hend⟩ := ih child hchild _
      rw [unwrapParens_of_head? hkind hinner]
      exact ⟨.parens hkind hinner hchain, hend⟩

end SourceFile

end ComponentDocs

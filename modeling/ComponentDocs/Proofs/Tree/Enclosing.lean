import ComponentDocs.Proofs.Tree.Order
import Mathlib.Tactic.SplitIfs

/-!
# Places around a place

* `Cursor.IsOpenTo`: no node of some kinds stands between a place and some of its ancestors;
* `Cursor.enclosing?`: the nearest place above that has one of some kinds, `Cursor.enclosing?_eq_some_iff`;
* `Cursor.mem_walk_of_isAbove`: the places of a tree above one of its places, and what is below them.
-/

namespace ComponentDocs.Cursor

variable {kinds others : List String} {node : Node} {ancestors : List Node} {c d outer : Cursor}

/-! ## Open ways -/

/-- No node of the kinds stands between the place and the ancestors. -/
def IsOpenTo (kinds : List String) (ancestors : List Node) (c : Cursor) : Prop :=
  ∃ between, c.ancestors = between ++ ancestors ∧ ∀ node ∈ between, node.kind ∉ kinds

theorem isOpenTo_self (kinds : List String) (c : Cursor) : c.IsOpenTo kinds c.ancestors := ⟨[], rfl, by simp⟩

theorem IsOpenTo.mono (h : c.IsOpenTo others ancestors) (hsub : kinds ⊆ others) : c.IsOpenTo kinds ancestors := by
  obtain ⟨between, heq, hfree⟩ := h
  exact ⟨between, heq, fun node hnode hkind => hfree node hnode (hsub hkind)⟩

theorem IsOpenTo.trans {rest : List Node} (h : c.IsOpenTo kinds (node :: rest)) (hkind : node.kind ∉ kinds)
    (hrest : IsOpenTo kinds ancestors ⟨node, rest⟩) : c.IsOpenTo kinds ancestors := by
  obtain ⟨between, heq, hfree⟩ := h
  obtain ⟨above, rfl, hfree'⟩ := hrest
  refine ⟨between ++ node :: above, by rw [heq, List.append_assoc, List.cons_append], ?_⟩
  rw [List.forall_mem_append, List.forall_mem_cons]
  exact ⟨hfree, hkind, hfree'⟩

theorem IsOpenTo.of_isAbove (h : c.IsOpenTo kinds ancestors) (habove : outer.IsAbove c)
    (hwithin : ancestors <:+ outer.ancestors) : outer.kind ∉ kinds ∧ outer.IsOpenTo kinds ancestors := by
  obtain ⟨between, heq, hfree⟩ := h
  obtain ⟨front, hfront⟩ := habove
  obtain ⟨above, habove⟩ := hwithin
  have hbetween : between ++ ancestors = front ++ outer.node :: above ++ ancestors := by
    rw [← heq, ← hfront, ← habove, List.append_assoc, List.cons_append]
  obtain rfl := List.append_cancel_right hbetween
  rw [List.forall_mem_append, List.forall_mem_cons] at hfree
  exact ⟨hfree.2.1, above, habove.symm, hfree.2.2⟩

/-- The way from a place to some ancestors is open if it is open to those and to one more of them, which has none of
the kinds. -/
theorem isOpenTo_iff_of_suffix (h : node :: ancestors <:+ c.ancestors) :
    c.IsOpenTo kinds ancestors ↔ node.kind ∉ kinds ∧ c.IsOpenTo kinds (node :: ancestors) := by
  constructor
  · rintro ⟨between, heq, hfree⟩
    obtain ⟨front, hfront⟩ := h
    obtain rfl : between = front ++ [node] :=
      List.append_cancel_right (heq.symm.trans (hfront.symm.trans (List.append_cons ..)))
    rw [List.forall_mem_append, List.forall_mem_singleton] at hfree
    exact ⟨hfree.2, front, hfront.symm, hfree.1⟩
  · rintro ⟨hkind, hopen⟩
    exact hopen.trans hkind (isOpenTo_self kinds ⟨node, ancestors⟩)

/-! ## The nearest place -/

theorem eq_of_cons_eq (h : c.node :: c.ancestors = d.node :: d.ancestors) : c = d := by
  obtain ⟨node, ancestors⟩ := c
  obtain ⟨rfl, rfl⟩ := List.cons.inj h
  rfl

/-- The first place among some ancestors that has one of the kinds. -/
def nearestAmong (kinds : List String) : List Node → Option Cursor
  | [] => none
  | node :: rest => if node.kind ∈ kinds then some ⟨node, rest⟩ else nearestAmong kinds rest

/-- The nearest place above a place that has one of the kinds. -/
def enclosing? (kinds : List String) (c : Cursor) : Option Cursor := nearestAmong kinds c.ancestors

theorem nearestAmong_eq_some_iff : nearestAmong kinds ancestors = some outer ↔ outer.kind ∈ kinds ∧
    ∃ between, ancestors = between ++ outer.node :: outer.ancestors ∧ ∀ node ∈ between, node.kind ∉ kinds := by
  induction ancestors with
  | nil => simp [nearestAmong]
  | cons node rest ih =>
    rw [nearestAmong]
    split_ifs with hkind
    · constructor
      · rintro ⟨⟩
        exact ⟨hkind, [], rfl, by simp⟩
      · rintro ⟨-, _ | ⟨first, between⟩, heq, hfree⟩
        · obtain ⟨rfl, rfl⟩ := List.cons.inj heq
          rfl
        · obtain ⟨rfl, -⟩ := List.cons.inj heq
          exact absurd hkind (hfree node List.mem_cons_self)
    · rw [ih]
      refine and_congr_right fun houter => ⟨?_, ?_⟩
      · rintro ⟨between, rfl, hfree⟩
        exact ⟨node :: between, rfl, List.forall_mem_cons.mpr ⟨hkind, hfree⟩⟩
      · rintro ⟨_ | ⟨first, between⟩, heq, hfree⟩
        · obtain ⟨rfl, rfl⟩ := List.cons.inj heq
          exact absurd houter hkind
        · exact ⟨between, (List.cons.inj heq).2, (List.forall_mem_cons.mp hfree).2⟩

theorem enclosing?_eq_some_iff :
    c.enclosing? kinds = some outer ↔ outer.kind ∈ kinds ∧ c.IsOpenTo kinds (outer.node :: outer.ancestors) :=
  nearestAmong_eq_some_iff

/-- The nearest place of more kinds is the nearest of fewer kinds if it has one of these. -/
theorem enclosing?_of_subset (h : c.enclosing? others = some outer) (hsub : kinds ⊆ others) (hkind : outer.kind ∈ kinds) :
    c.enclosing? kinds = some outer :=
  enclosing?_eq_some_iff.mpr ⟨hkind, (enclosing?_eq_some_iff.mp h).2.mono hsub⟩

/-- A place of the kinds that stands above another one is the nearest of them, or stands above the nearest. -/
theorem enclosing?_eq_or_isAbove (h : c.enclosing? kinds = some d) (habove : outer.IsAbove c) (hkind : outer.kind ∈ kinds) :
    d = outer ∨ outer.IsAbove d := by
  obtain ⟨-, between, heq, hfree⟩ := enclosing?_eq_some_iff.mp h
  obtain ⟨front, hfront⟩ := habove
  rcases List.append_eq_append_iff.mp (hfront.trans heq) with ⟨cut, rfl, hcut⟩ | ⟨cut, rfl, hcut⟩
  · cases cut with
    | nil => exact .inl (eq_of_cons_eq hcut.symm)
    | cons first cut =>
      obtain ⟨rfl, -⟩ := List.cons.inj hcut
      exact absurd hkind (hfree outer.node (by simp))
  · cases cut with
    | nil => exact .inl (eq_of_cons_eq hcut)
    | cons first cut =>
      obtain ⟨-, hancestors⟩ := List.cons.inj hcut
      exact .inr ⟨cut, hancestors.symm⟩

/-! ## Places above -/

theorem exists_parent {front : List Node} (hc : c ∈ walkFrom ancestors node)
    (hfront : front ++ outer.node :: outer.ancestors = c.ancestors) (hwithin : ancestors <:+ outer.ancestors) :
    ∃ parent ∈ walkFrom ancestors node, c.ancestors = parent.node :: parent.ancestors ∧
      c.node ∈ parent.node.children := by
  refine (eq_or_parent_mem_walkFrom hc).resolve_left ?_
  rintro rfl
  have hlength := congrArg List.length hfront
  have := hwithin.length_le
  simp only [List.length_append, List.length_cons] at hlength
  omega

theorem mem_walk_of_parent (hancestors : c.ancestors = d.node :: d.ancestors) (hchild : c.node ∈ d.node.children)
    (hd : d ∈ outer.walk) : c ∈ outer.walk := by
  obtain ⟨node, ancestors⟩ := c
  obtain rfl : ancestors = d.node :: d.ancestors := hancestors
  exact enter_mem_walk hd hchild

/-- A place above a place of a tree, from the top of the tree on, is a place of the tree, and has the lower one among
its own. -/
theorem mem_walk_of_isAbove (hc : c ∈ walkFrom ancestors node) (habove : outer.IsAbove c)
    (hwithin : ancestors <:+ outer.ancestors) : outer ∈ walkFrom ancestors node ∧ c ∈ outer.walk := by
  obtain ⟨front, hfront⟩ := habove
  -- The induction goes up from the place, parent by parent, until it comes to the outer one.
  induction front generalizing c with
  | nil =>
    obtain ⟨parent, hparent, hancestors, hchild⟩ := exists_parent hc hfront hwithin
    obtain rfl : outer = parent := eq_of_cons_eq (hfront.trans hancestors)
    exact ⟨hparent, mem_walk_of_parent hancestors hchild (self_mem_walk outer)⟩
  | cons first front ih =>
    obtain ⟨parent, hparent, hancestors, hchild⟩ := exists_parent hc hfront hwithin
    obtain ⟨-, hfront⟩ := List.cons.inj (hfront.trans hancestors)
    obtain ⟨houter, hmem⟩ := ih hparent hfront
    exact ⟨houter, mem_walk_of_parent hancestors hchild hmem⟩

end ComponentDocs.Cursor

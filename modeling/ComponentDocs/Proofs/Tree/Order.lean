import ComponentDocs.Proofs.Tree.Walk
import Mathlib.Data.List.Flatten
import Mathlib.Data.List.Pairwise

/-!
# Order of the places of a tree

Two places of a tree are one above the other, or their bytes follow one another.

* `Node.induction`: what passes from the children of a node to the node holds of every node;
* `Cursor.length_namedChildren_le`: a place has no more children than the tree has nodes;
* `Cursor.IsAbove`: a place is above another one;
* `Cursor.parent_mem_walk`: the parent of a place of a tree is a place of the tree;
* `Cursor.Nested`: children lie in their parents, and siblings follow one another;
* **`Cursor.Nested.pairwise_walk`**: the places of such a tree are above one another or follow one another;
* `Cursor.filterMap_walk_sublist`: places that are chosen below places of which none is above another one come
  in the order of the tree.
-/

namespace ComponentDocs

/-! ## Induction -/

mutual

/-- What passes from the children of a node to the node holds of every node. -/
theorem Node.induction {P : Node → Prop} (step : ∀ node, (∀ child ∈ node.children, P child) → P node) :
    ∀ node, P node
  | .mk kind named missing field start stop children =>
    step (.mk kind named missing field start stop children) (Node.forall_of_step step children)

theorem Node.forall_of_step {P : Node → Prop} (step : ∀ node, (∀ child ∈ node.children, P child) → P node) :
    ∀ nodes : List Node, ∀ node ∈ nodes, P node
  | [] => fun _ hnode => absurd hnode List.not_mem_nil
  | first :: rest => List.forall_mem_cons.mpr ⟨Node.induction step first, Node.forall_of_step step rest⟩

end

/-! ## Sizes -/

namespace Node

theorem size_pos (node : Node) : 0 < node.size := by
  cases node
  exact Nat.succ_pos _

theorem sizeAll_children (node : Node) : node.size = sizeAll node.children + 1 := by
  cases node
  rfl

theorem size_le_sizeAll {node : Node} {nodes : List Node} (h : node ∈ nodes) : node.size ≤ sizeAll nodes := by
  induction nodes with
  | nil => exact absurd h List.not_mem_nil
  | cons first rest ih =>
    rw [sizeAll]
    rcases List.mem_cons.mp h with rfl | h
    · exact Nat.le_add_right _ _
    · exact Nat.le_trans (ih h) (Nat.le_add_left _ _)

theorem length_le_sizeAll (nodes : List Node) : nodes.length ≤ sizeAll nodes := by
  induction nodes with
  | nil => exact Nat.le_refl 0
  | cons node rest ih =>
    have hpos := node.size_pos
    rw [sizeAll, List.length_cons]
    omega

end Node

namespace Cursor

theorem walkAll_eq_flatMap (ancestors nodes : List Node) :
    walkAll ancestors nodes = nodes.flatMap (walkFrom ancestors) := by
  induction nodes with
  | nil => rfl
  | cons node rest ih => rw [walkAll, ih, List.flatMap_cons]

theorem walkFrom_eq (ancestors : List Node) (node : Node) :
    walkFrom ancestors node = ⟨node, ancestors⟩ :: node.children.flatMap (walkFrom (node :: ancestors)) := by
  cases node with
  | mk kind named missing field start stop children => rw [walkFrom, walkAll_eq_flatMap]; rfl

theorem mem_walkFrom_iff {ancestors : List Node} {node : Node} {c : Cursor} :
    c ∈ walkFrom ancestors node ↔
      c = ⟨node, ancestors⟩ ∨ ∃ child ∈ node.children, c ∈ walkFrom (node :: ancestors) child := by
  rw [walkFrom_eq, List.mem_cons, List.mem_flatMap]

theorem walk_subset_walk {top c d : Cursor} (hc : c ∈ top.walk) (hd : d ∈ c.walk) : d ∈ top.walk := by
  obtain ⟨node, ancestors⟩ := c
  rw [walk] at hd
  induction node using Node.induction generalizing ancestors with
  | step node ih =>
    rcases mem_walkFrom_iff.mp hd with rfl | ⟨child, hchild, hd⟩
    · exact hc
    · exact ih child hchild _ (enter_mem_walk hc hchild) hd

theorem size_le_of_mem_walkFrom {ancestors : List Node} {node : Node} {c : Cursor} (hc : c ∈ walkFrom ancestors node) :
    c.node.size ≤ node.size := by
  induction node using Node.induction generalizing ancestors with
  | step node ih =>
    rcases mem_walkFrom_iff.mp hc with rfl | ⟨child, hchild, hc⟩
    · exact Nat.le_refl _
    · have hle := Nat.le_trans (ih child hchild hc) (Node.size_le_sizeAll hchild)
      rw [node.sizeAll_children]
      omega

theorem length_namedChildren_le {top c : Cursor} (hc : c ∈ top.walk) : c.namedChildren.length ≤ top.node.size := by
  have hnamed : c.node.namedChildren.length ≤ c.node.children.length := List.length_filter_le ..
  have hchildren := Node.length_le_sizeAll c.node.children
  have hle := size_le_of_mem_walkFrom hc
  rw [c.node.sizeAll_children] at hle
  rw [namedChildren, List.length_map]
  omega

/-! ## Places above places -/

/-- The first place is above the second one. -/
def IsAbove (c d : Cursor) : Prop := c.node :: c.ancestors <:+ d.ancestors

theorem eq_or_isAbove_of_mem_walkFrom {ancestors : List Node} {node : Node} {c : Cursor}
    (hc : c ∈ walkFrom ancestors node) : c = ⟨node, ancestors⟩ ∨ IsAbove ⟨node, ancestors⟩ c := by
  induction node using Node.induction generalizing ancestors with
  | step node ih =>
    refine (mem_walkFrom_iff.mp hc).imp_right fun ⟨child, hchild, hc⟩ => ?_
    rcases ih child hchild hc with rfl | habove
    · exact List.suffix_refl _
    · exact (List.suffix_cons _ _).trans habove

theorem isAbove_of_mem_child {ancestors : List Node} {node child : Node} {c : Cursor}
    (hc : c ∈ walkFrom (node :: ancestors) child) : IsAbove ⟨node, ancestors⟩ c := by
  rcases eq_or_isAbove_of_mem_walkFrom hc with rfl | habove
  · exact List.suffix_refl _
  · exact (List.suffix_cons _ _).trans habove

/-! ## Parents -/

theorem eq_or_parent_mem_walkFrom {ancestors : List Node} {node : Node} {c : Cursor}
    (hc : c ∈ walkFrom ancestors node) :
    c = ⟨node, ancestors⟩ ∨ ∃ parent ∈ walkFrom ancestors node,
      c.ancestors = parent.node :: parent.ancestors ∧ c.node ∈ parent.node.children := by
  induction node using Node.induction generalizing ancestors with
  | step node ih =>
    refine (mem_walkFrom_iff.mp hc).imp_right fun ⟨child, hchild, hc⟩ => ?_
    rcases ih child hchild hc with rfl | ⟨parent, hparent, hancestors, hnode⟩
    · exact ⟨⟨node, ancestors⟩, mem_walkFrom_self _ _, rfl, hchild⟩
    · exact ⟨parent, mem_walkFrom_iff.mpr (Or.inr ⟨child, hchild, hparent⟩), hancestors, hnode⟩

/-- The parent of a place of a tree is a place of the tree. -/
theorem parent_mem_walk {top parent : Node} {rest : List Node} {c : Cursor} (hc : c ∈ (root top).walk)
    (hparent : c.ancestors = parent :: rest) :
    (⟨parent, rest⟩ : Cursor) ∈ (root top).walk ∧ c.node ∈ parent.children := by
  rcases eq_or_parent_mem_walkFrom hc with rfl | ⟨above, habove, hancestors, hnode⟩
  · exact absurd hparent (List.cons_ne_nil _ _).symm
  · obtain ⟨rfl, rfl⟩ := List.cons.inj (hparent.symm.trans hancestors)
    exact ⟨habove, hnode⟩

/-! ## Bytes -/

/-- The bytes of children lie in those of their parents, and siblings follow one another. -/
structure Nested (places : List Cursor) : Prop where
  start_le : ∀ c ∈ places, ∀ child ∈ c.node.children, c.node.start ≤ child.start
  le_stop : ∀ c ∈ places, ∀ child ∈ c.node.children, child.stop ≤ c.node.stop
  siblings : ∀ c ∈ places, c.node.children.Pairwise fun a b => a.stop ≤ b.start

namespace Nested

theorem mono {places others : List Cursor} (h : Nested places) (hsub : ∀ c ∈ others, c ∈ places) : Nested others :=
  ⟨fun c hc => h.start_le c (hsub c hc), fun c hc => h.le_stop c (hsub c hc), fun c hc => h.siblings c (hsub c hc)⟩

theorem below {top c : Cursor} (h : Nested top.walk) (hc : c ∈ top.walk) : Nested c.walk :=
  h.mono fun _ hd => walk_subset_walk hc hd

theorem child {ancestors : List Node} {node child : Node} (h : Nested (walkFrom ancestors node))
    (hchild : child ∈ node.children) : Nested (walkFrom (node :: ancestors) child) :=
  h.mono fun _ hc => mem_walkFrom_iff.mpr (Or.inr ⟨child, hchild, hc⟩)

theorem within_walkFrom {ancestors : List Node} {node : Node} (h : Nested (walkFrom ancestors node)) {c : Cursor}
    (hc : c ∈ walkFrom ancestors node) : node.start ≤ c.node.start ∧ c.node.stop ≤ node.stop := by
  induction node using Node.induction generalizing ancestors with
  | step node ih =>
    have htop := mem_walkFrom_self ancestors node
    rcases mem_walkFrom_iff.mp hc with rfl | ⟨child, hchild, hc⟩
    · exact ⟨Nat.le_refl _, Nat.le_refl _⟩
    · obtain ⟨hstart, hstop⟩ := ih child hchild (h.child hchild) hc
      exact ⟨Nat.le_trans (h.start_le _ htop child hchild) hstart, Nat.le_trans hstop (h.le_stop _ htop child hchild)⟩

/-- The bytes of a place below another one lie in those of the other. -/
theorem within_walk {top c : Cursor} (h : Nested top.walk) (hc : c ∈ top.walk) :
    top.node.start ≤ c.node.start ∧ c.node.stop ≤ top.node.stop := h.within_walkFrom hc

theorem pairwise_walkFrom {ancestors : List Node} {node : Node} (h : Nested (walkFrom ancestors node)) :
    (walkFrom ancestors node).Pairwise fun c d => IsAbove c d ∨ c.node.stop ≤ d.node.start := by
  induction node using Node.induction generalizing ancestors with
  | step node ih =>
    rw [walkFrom_eq, List.pairwise_cons, List.pairwise_flatMap]
    refine ⟨fun d hd => ?_, fun child hchild => ih child hchild (h.child hchild), ?_⟩
    · obtain ⟨child, -, hd⟩ := List.mem_flatMap.mp hd
      exact Or.inl (isAbove_of_mem_child hd)
    · have hsiblings := h.siblings _ (mem_walkFrom_self ancestors node)
      refine hsiblings.imp_of_mem fun {a b} ha hb hab c hc d hd => Or.inr ?_
      calc c.node.stop ≤ a.stop := ((h.child ha).within_walkFrom hc).2
        _ ≤ b.start := hab
        _ ≤ d.node.start := ((h.child hb).within_walkFrom hd).1

/-- **The places of a tree are above one another or follow one another.** -/
theorem pairwise_walk {top : Cursor} (h : Nested top.walk) :
    top.walk.Pairwise fun c d => IsAbove c d ∨ c.node.stop ≤ d.node.start := h.pairwise_walkFrom

end Nested

/-! ## Chosen places -/

theorem filterMap_walkFrom_sublist {f : Cursor → Option Cursor} {ancestors : List Node} {node : Node}
    (hbelow : ∀ c ∈ walkFrom ancestors node, ∀ d, f c = some d → d ∈ c.walk)
    (hapart : ∀ c ∈ walkFrom ancestors node, ∀ d ∈ walkFrom ancestors node, IsAbove c d →
      f c = none ∨ f d = none) :
    ((walkFrom ancestors node).filterMap f).Sublist (walkFrom ancestors node) := by
  induction node using Node.induction generalizing ancestors with
  | step node ih =>
    have htop := mem_walkFrom_self ancestors node
    have hsub : ∀ child ∈ node.children, ∀ c ∈ walkFrom (node :: ancestors) child, c ∈ walkFrom ancestors node :=
      fun child hchild c hc => mem_walkFrom_iff.mpr (Or.inr ⟨child, hchild, hc⟩)
    have hchildren : ∀ child ∈ node.children,
        ((walkFrom (node :: ancestors) child).filterMap f).Sublist (walkFrom (node :: ancestors) child) :=
      fun child hchild => ih child hchild (fun c hc => hbelow c (hsub child hchild c hc))
        fun c hc d hd => hapart c (hsub child hchild c hc) d (hsub child hchild d hd)
    cases hf : f ⟨node, ancestors⟩ with
    | none =>
      rw [walkFrom_eq, List.filterMap_cons_none hf, List.filterMap_flatMap]
      exact (List.Sublist.flatMap_right _ hchildren).cons _
    | some d =>
      -- The place at the top is chosen, so none of those below it is.
      have hnone : (node.children.flatMap (walkFrom (node :: ancestors))).filterMap f = [] := by
        refine List.filterMap_eq_nil_iff.mpr fun c hc => ?_
        obtain ⟨child, hchild, hc⟩ := List.mem_flatMap.mp hc
        refine (hapart _ htop c (hsub child hchild c hc) (isAbove_of_mem_child hc)).resolve_left ?_
        rw [hf]
        exact Option.some_ne_none d
      have hlist : (walkFrom ancestors node).filterMap f = [d] := by
        rw [walkFrom_eq, List.filterMap_cons_some hf, hnone]
      rw [hlist, List.singleton_sublist]
      exact hbelow _ htop d hf

/-- Places that are chosen below places of which none is above another one come in the order of the tree. -/
theorem filterMap_walk_sublist {f : Cursor → Option Cursor} {top : Cursor}
    (hbelow : ∀ c ∈ top.walk, ∀ d, f c = some d → d ∈ c.walk)
    (hapart : ∀ c ∈ top.walk, ∀ d ∈ top.walk, IsAbove c d → f c = none ∨ f d = none) :
    (top.walk.filterMap f).Sublist top.walk := filterMap_walkFrom_sublist hbelow hapart

end Cursor

end ComponentDocs

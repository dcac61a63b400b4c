import ComponentDocs.Source.Bindings

/-!
# Places of a tree

* `Node.leaf`: a node without children;
* `Cursor.length_walk`: a tree has as many places as nodes;
* `Cursor.enter_mem_walk`: places below a place of the tree are places of the tree;
* `SourceFile.resolve_mem_walk`: so is the value behind an expression.
-/

namespace ComponentDocs

/-- A node without children, such as a name or a sign. -/
def Node.leaf (kind : String) (named : Bool) (field : String) (start stop : Nat) : Node :=
  .mk kind named false field start stop []

namespace Cursor

/-! ## Number of places -/

mutual

theorem length_walkFrom (ancestors : List Node) (node : Node) : (walkFrom ancestors node).length = node.size := by
  cases node with
  | mk kind named missing field start stop children =>
    simp [walkFrom, Node.size, length_walkAll]

theorem length_walkAll (ancestors : List Node) (nodes : List Node) :
    (walkAll ancestors nodes).length = Node.sizeAll nodes := by
  cases nodes with
  | nil => rfl
  | cons node rest => simp [walkAll, Node.sizeAll, length_walkFrom, length_walkAll]

end

theorem length_walk (c : Cursor) : c.walk.length = c.node.size := length_walkFrom c.ancestors c.node

/-! ## Places below a place -/

theorem mem_walkFrom_self (ancestors : List Node) (node : Node) :
    (⟨node, ancestors⟩ : Cursor) ∈ walkFrom ancestors node := by
  cases node
  simp [walkFrom]

theorem self_mem_walk (c : Cursor) : c ∈ c.walk := mem_walkFrom_self c.ancestors c.node

theorem mem_walkAll {ancestors nodes : List Node} {node : Node} {c : Cursor} (hnode : node ∈ nodes)
    (hc : c ∈ walkFrom ancestors node) : c ∈ walkAll ancestors nodes := by
  induction nodes with
  | nil => exact absurd hnode List.not_mem_nil
  | cons first rest ih =>
    simp only [walkAll, List.mem_append]
    rcases List.mem_cons.mp hnode with rfl | hnode
    · exact Or.inl hc
    · exact Or.inr (ih hnode)

mutual

theorem enter_mem_walkFrom {ancestors : List Node} {node child : Node} {c : Cursor}
    (hc : c ∈ walkFrom ancestors node) (hchild : child ∈ c.node.children) :
    c.enter child ∈ walkFrom ancestors node := by
  cases node with
  | mk kind named missing field start stop children =>
    simp only [walkFrom, List.mem_cons] at hc ⊢
    rcases hc with rfl | hc
    · exact Or.inr (mem_walkAll hchild (mem_walkFrom_self _ _))
    · exact Or.inr (enter_mem_walkAll hc hchild)

theorem enter_mem_walkAll {ancestors nodes : List Node} {child : Node} {c : Cursor}
    (hc : c ∈ walkAll ancestors nodes) (hchild : child ∈ c.node.children) :
    c.enter child ∈ walkAll ancestors nodes := by
  cases nodes with
  | nil => exact absurd hc List.not_mem_nil
  | cons node rest =>
    simp only [walkAll, List.mem_append] at hc ⊢
    rcases hc with hc | hc
    · exact Or.inl (enter_mem_walkFrom hc hchild)
    · exact Or.inr (enter_mem_walkAll hc hchild)

end

section

variable {top c d : Cursor} (hc : c ∈ top.walk)
include hc

theorem enter_mem_walk {child : Node} (hchild : child ∈ c.node.children) : c.enter child ∈ top.walk :=
  enter_mem_walkFrom hc hchild

theorem child?_mem_walk {field : String} (hd : c.child? field = some d) : d ∈ top.walk := by
  obtain ⟨child, hchild, rfl⟩ := Option.map_eq_some_iff.mp hd
  exact enter_mem_walk hc (List.mem_of_find?_eq_some hchild)

theorem getD_child?_mem_walk (field : String) : (c.child? field).getD c ∈ top.walk := by
  cases h : c.child? field with
  | none => exact hc
  | some d => exact child?_mem_walk hc h

theorem namedChildren_subset_walk (hd : d ∈ c.namedChildren) : d ∈ top.walk := by
  obtain ⟨child, hchild, rfl⟩ := List.mem_map.mp hd
  exact enter_mem_walk hc ((List.mem_filter.mp hchild).1)

theorem parts_subset_walk (hd : d ∈ c.parts) : d ∈ top.walk := by
  obtain ⟨child, hchild, rfl⟩ := List.mem_map.mp hd
  exact enter_mem_walk hc ((List.mem_filter.mp hchild).1)

end

/-! ## Parentheses -/

mutual

theorem unwrapParensFrom_mem_walk {top : Cursor} {ancestors : List Node} {node : Node}
    (h : (⟨node, ancestors⟩ : Cursor) ∈ top.walk) : unwrapParensFrom ancestors node ∈ top.walk := by
  cases node with
  | mk kind named missing field start stop children =>
    simp only [unwrapParensFrom]
    split
    · exact unwrapFirst_mem_walk h fun child hchild => hchild
    · exact h

theorem unwrapFirst_mem_walk {top : Cursor} {outer : Node} {ancestors nodes : List Node}
    (h : (⟨outer, ancestors⟩ : Cursor) ∈ top.walk) (hnodes : ∀ child ∈ nodes, child ∈ outer.children) :
    unwrapFirst outer ancestors nodes ∈ top.walk := by
  cases nodes with
  | nil => exact h
  | cons node rest =>
    simp only [unwrapFirst]
    split
    · exact unwrapParensFrom_mem_walk (enter_mem_walk h (hnodes node List.mem_cons_self))
    · exact unwrapFirst_mem_walk h fun child hchild => hnodes child (List.mem_cons_of_mem _ hchild)

end

theorem unwrapParens_mem_walk {top c : Cursor} (hc : c ∈ top.walk) : c.unwrapParens ∈ top.walk :=
  unwrapParensFrom_mem_walk hc

end Cursor

/-! ## Values behind names -/

namespace SourceFile

open Cursor

variable {src : SourceFile} {c value : Cursor}

theorem topLevel_subset_walk (hc : c ∈ src.topLevel) : c ∈ src.top.walk := by
  obtain ⟨statement, hstatement, rfl⟩ := List.mem_map.mp hc
  have hmem : statement ∈ src.top.walk := namedChildren_subset_walk (self_mem_walk src.top) hstatement
  rw [exportedDeclaration]
  split
  · exact getD_child?_mem_walk hmem _
  · exact hmem

theorem findVariable_mem_walk {name : String} (h : src.findVariable name = some value) : value ∈ src.top.walk := by
  obtain ⟨d, hd, hvalue⟩ := Option.bind_eq_some_iff.mp h
  have hmem := List.mem_reverse.mp (List.mem_of_find?_eq_some hd)
  obtain ⟨statement, hstatement, hmem⟩ := List.mem_flatMap.mp hmem
  rw [declarators] at hmem
  split at hmem
  · have hdeclarator := namedChildren_subset_walk (topLevel_subset_walk hstatement) (List.mem_filter.mp hmem).1
    exact child?_mem_walk hdeclarator hvalue
  · exact absurd hmem List.not_mem_nil

theorem resolveUpTo_mem_walk (count : Nat) (hc : c ∈ src.top.walk) : src.resolveUpTo count c ∈ src.top.walk := by
  induction count generalizing c with
  | zero => exact unwrapParens_mem_walk hc
  | succ count ih =>
    simp only [resolveUpTo]
    split
    · split
      · next hvalue => exact ih (findVariable_mem_walk hvalue)
      · exact unwrapParens_mem_walk hc
    · exact unwrapParens_mem_walk hc

theorem resolve_mem_walk (hc : c ∈ src.top.walk) : src.resolve c ∈ src.top.walk := resolveUpTo_mem_walk _ hc

end SourceFile

end ComponentDocs

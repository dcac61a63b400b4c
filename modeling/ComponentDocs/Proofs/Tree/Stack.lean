import ComponentDocs.Component.Resolver
import ComponentDocs.Proofs.Tree.Order
import Mathlib.Data.List.Basic

/-!
# Walking with a stack

A tree is walked with a stack of waiting places: the last of them is visited, and its children wait in its stead, the
first of them last.

* `Walking`: the visited and the waiting places, `Walking.step`, `Walking.steps`: one and several more visits;
* `Walking.left`: the places that will be visited; `Walking.of_step`: a step visits the first of them;
* `Walking.steps_le`, `Walking.steps_lt`: after some steps;
* `Cursor.descend?`: the place to which the numbers of children lead; `Node.paths`: the ways to all places;
* **`Cursor.walk_by_stack`**: a walk with a stack ends when every place was visited once, each before the places below
  it and in source order, and the readers of a tree see the places in this order.
-/

namespace ComponentDocs

/-! ## One step after another -/

/-- A walk under way: the places that were visited, in order, and those that wait, of which the last is next. -/
@[ext]
structure Walking where
  visited : List Cursor
  waiting : List Cursor

namespace Walking

variable {w w' : Walking} {c : Cursor} {n : ℕ}

/-- Nothing was visited, and the top of a tree waits. -/
def start (c : Cursor) : Walking := ⟨[], [c]⟩

/-- The last place that waits is visited, and its children are put behind those that wait, the last child first. -/
def step (w : Walking) : Option Walking :=
  w.waiting.getLast?.map fun c => ⟨w.visited ++ [c], w.waiting.dropLast ++ c.children.reverse⟩

/-- The walk after so many steps, if it goes on for so long. -/
def steps : ℕ → Walking → Option Walking
  | 0, w => some w
  | n + 1, w => w.step.bind (steps n)

end Walking

/-! ## The places that are left -/

theorem Cursor.walk_eq (c : Cursor) : c.walk = c :: c.children.flatMap Cursor.walk := by
  rw [Cursor.walk, Cursor.walkFrom_eq, Cursor.children, List.flatMap_map]
  rfl

namespace Walking

variable {w w' : Walking} {c : Cursor} {n : ℕ}

/-- The places that will be visited. -/
def left (w : Walking) : List Cursor := w.waiting.reverse.flatMap Cursor.walk

theorem left_start (c : Cursor) : (start c).left = c.walk := List.flatMap_singleton ..

theorem step_eq_none_iff : w.step = none ↔ w.waiting = [] := by
  rw [step, Option.map_eq_none_iff, List.getLast?_eq_none_iff]

/-- **A step visits the first of the places that are left.** -/
theorem of_step (h : w.step = some w') : ∃ c, w'.visited = w.visited ++ [c] ∧ w.left = c :: w'.left := by
  obtain ⟨c, hlast, rfl⟩ := Option.map_eq_some_iff.mp h
  obtain ⟨front, hfront⟩ := List.getLast?_eq_some_iff.mp hlast
  refine ⟨c, rfl, ?_⟩
  rw [left, left, hfront, List.dropLast_concat, List.reverse_append, List.reverse_append, List.reverse_reverse,
    List.reverse_singleton, List.singleton_append, List.flatMap_cons, List.flatMap_append, c.walk_eq, List.cons_append]

theorem left_eq_nil_iff : w.left = [] ↔ w.waiting = [] := by
  refine ⟨fun h => step_eq_none_iff.mp ?_, fun h => by rw [left, h]; rfl⟩
  cases hstep : w.step with
  | none => rfl
  | some w' =>
    obtain ⟨c, -, hleft⟩ := of_step hstep
    exact absurd (h.symm.trans hleft) (List.cons_ne_nil _ _).symm

/-- **After some steps the first places were visited, in order.** -/
theorem steps_le (h : n ≤ w.left.length) :
    ∃ w', steps n w = some w' ∧ w'.visited = w.visited ++ w.left.take n ∧ w'.left = w.left.drop n := by
  induction n generalizing w with
  | zero => exact ⟨w, rfl, (List.append_nil _).symm, rfl⟩
  | succ n ih =>
    cases hstep : w.step with
    | none =>
      rw [left_eq_nil_iff.mpr (step_eq_none_iff.mp hstep)] at h
      exact absurd h (Nat.not_succ_le_zero n)
    | some next =>
      obtain ⟨c, hvisited, hleft⟩ := of_step hstep
      rw [hleft, List.length_cons] at h
      obtain ⟨w', hsteps, hvisited', hleft'⟩ := ih (Nat.le_of_succ_le_succ h)
      refine ⟨w', by rw [steps, hstep]; exact hsteps, ?_, ?_⟩
      · rw [hvisited', hvisited, hleft, List.append_assoc, List.take_succ_cons, List.singleton_append]
      · rw [hleft', hleft, List.drop_succ_cons]

theorem steps_lt (h : w.left.length < n) : steps n w = none := by
  induction n generalizing w with
  | zero => exact absurd h (Nat.not_lt_zero _)
  | succ n ih =>
    rw [steps]
    cases hstep : w.step with
    | none => rfl
    | some next =>
      obtain ⟨c, -, hleft⟩ := of_step hstep
      rw [hleft, List.length_cons] at h
      exact ih (Nat.lt_of_succ_lt_succ h)

/-- **A walk ends when every place was visited**, and so after as many steps as the tree has nodes. -/
theorem steps_start_iff {visited : List Cursor} :
    steps n (start c) = some ⟨visited, []⟩ ↔ n = c.node.size ∧ visited = c.walk := by
  have hlength : (start c).left.length = c.node.size := by rw [left_start, Cursor.length_walk]
  rcases Nat.lt_or_ge c.node.size n with hlt | hle
  · rw [steps_lt (hlength ▸ hlt)]
    exact iff_of_false (Option.some_ne_none _).symm fun h => absurd h.1 (Nat.ne_of_gt hlt)
  · obtain ⟨w, hsteps, hvisited, hleft⟩ := steps_le (hlength ▸ hle)
    rw [left_start] at hvisited hleft
    have hwaiting : w.waiting = [] ↔ n = c.node.size := by
      rw [← left_eq_nil_iff, hleft, List.drop_eq_nil_iff, Cursor.length_walk]
      exact ⟨fun h => Nat.le_antisymm hle h, fun h => h ▸ Nat.le_refl _⟩
    rw [hsteps, Option.some_inj, Walking.ext_iff, hwaiting, and_comm]
    refine and_congr_right fun h => ?_
    rw [hvisited, h, ← Cursor.length_walk, List.take_length]
    exact eq_comm

end Walking

/-! ## The ways to the places -/

namespace Cursor

/-- The place to which the numbers of children lead. -/
def descend? : Cursor → List ℕ → Option Cursor
  | c, [] => some c
  | c, index :: way => c.children[index]?.bind fun child => child.descend? way

end Cursor

namespace Node

mutual

/-- The ways to the places of a tree: the number of a child at every step. -/
def paths : Node → List (List ℕ)
  | mk _ _ _ _ _ _ children => [] :: pathsAmong 0 children

/-- The ways into trees that are numbered one after the other. -/
def pathsAmong (index : ℕ) : List Node → List (List ℕ)
  | [] => []
  | node :: rest => node.paths.map (index :: ·) ++ pathsAmong (index + 1) rest

end

theorem pathsAmong_eq (index : ℕ) (nodes : List Node) :
    pathsAmong index nodes = (nodes.zipIdx index).flatMap fun child => child.1.paths.map (child.2 :: ·) := by
  induction nodes generalizing index with
  | nil => rfl
  | cons node rest ih => rw [pathsAmong, ih, List.zipIdx_cons, List.flatMap_cons]

theorem paths_eq (node : Node) :
    node.paths = [] :: node.children.zipIdx.flatMap fun child => child.1.paths.map (child.2 :: ·) := by
  cases node with
  | mk kind named missing field start stop children => rw [paths, pathsAmong_eq]; rfl

/-- A place comes before the places below it, and what is below a child before what is below a later one. -/
theorem pairwise_paths (node : Node) : node.paths.Pairwise (· < ·) := by
  induction node using Node.induction with
  | step node ih =>
    rw [paths_eq, List.pairwise_cons, List.pairwise_flatMap]
    refine ⟨fun way hway => ?_, fun child hchild => ?_, ?_⟩
    · obtain ⟨child, -, hway⟩ := List.mem_flatMap.mp hway
      obtain ⟨rest, -, rfl⟩ := List.mem_map.mp hway
      exact List.nil_lt_cons ..
    · rw [List.pairwise_map]
      exact (ih child.1 (List.fst_mem_of_mem_zipIdx hchild)).imp List.cons_lt_cons_self.mpr
    · have hnumbers : (node.children.zipIdx.map Prod.snd).Pairwise (· < ·) := by
        rw [List.zipIdx_map_snd]
        exact List.pairwise_lt_range'
      refine (List.pairwise_map.mp hnumbers).imp fun {a b} hlt way hway other hother => ?_
      obtain ⟨rest, -, rfl⟩ := List.mem_map.mp hway
      obtain ⟨rest', -, rfl⟩ := List.mem_map.mp hother
      exact List.cons_lt_cons_iff.mpr (Or.inl hlt)

end Node

namespace Cursor

theorem getElem?_children (c : Cursor) (index : ℕ) : c.children[index]? = c.node.children[index]?.map c.enter :=
  List.getElem?_map ..

theorem mem_paths_iff (c : Cursor) (way : List ℕ) : way ∈ c.node.paths ↔ (c.descend? way).isSome := by
  induction way generalizing c with
  | nil =>
    rw [Node.paths_eq]
    exact iff_of_true List.mem_cons_self rfl
  | cons index way ih =>
    rw [Node.paths_eq, List.mem_cons, or_iff_right (List.cons_ne_nil _ _), List.mem_flatMap, descend?, getElem?_children]
    constructor
    · rintro ⟨⟨child, number⟩, hchild, hway⟩
      obtain ⟨rest, hrest, hcons⟩ := List.mem_map.mp hway
      obtain ⟨rfl, rfl⟩ := List.cons.inj hcons
      rw [List.mk_mem_zipIdx_iff_getElem?.mp hchild]
      exact (ih (c.enter child)).mp hrest
    · intro h
      cases hchild : c.node.children[index]? with
      | none => rw [hchild] at h; exact absurd h Bool.false_ne_true
      | some child =>
        rw [hchild] at h
        exact ⟨(child, index), List.mk_mem_zipIdx_iff_getElem?.mpr hchild, List.mem_map_of_mem ((ih (c.enter child)).mpr h)⟩

/-- The places of a tree are those to which the ways lead, in the order of the ways. -/
theorem map_descend?_paths (c : Cursor) : c.node.paths.map c.descend? = c.walk.map some := by
  obtain ⟨node, ancestors⟩ := c
  induction node using Node.induction generalizing ancestors with
  | step node ih =>
    rw [Node.paths_eq, walk_eq, List.map_cons, List.map_cons, List.map_flatMap, List.map_flatMap, children,
      List.flatMap_map]
    conv_rhs => rw [← List.zipIdx_map_fst 0 node.children, List.flatMap_map]
    refine congrArg₂ List.cons rfl (List.flatMap_congr fun child hchild => ?_)
    have hdescend : ∀ way, descend? ⟨node, ancestors⟩ (child.2 :: way) = (enter ⟨node, ancestors⟩ child.1).descend? way := by
      intro way
      rw [descend?, getElem?_children, List.mem_zipIdx_iff_getElem?.mp hchild]
      rfl
    rw [List.map_map]
    exact (List.map_congr_left fun way _ => hdescend way).trans (ih child.1 (List.fst_mem_of_mem_zipIdx hchild) _)

/-! ## The readers of a tree -/

/-- **A walk with a stack visits every place of a tree once, in order.** It ends after as many steps as the tree has
nodes. The places that it visits are those to which the numbers of children lead, each once, and each before the places
below it and before what is below later children of its parent; this is the order of the walk that goes down by
recursion. So the markup in a tree, the names that a statement imports, the first error of a source and its components
are found among the places that a walk with a stack visits as they are found by recursion. -/
theorem walk_by_stack (c : Cursor) (src : SourceFile) :
    (∀ n visited, Walking.steps n (Walking.start c) = some ⟨visited, []⟩ ↔ n = c.node.size ∧ visited = c.walk) ∧
    c.walk = c :: c.children.flatMap walk ∧
    (∃ ways : List (List ℕ), ways.Pairwise (· < ·) ∧ (∀ way, way ∈ ways ↔ (c.descend? way).isSome) ∧
      ways.map c.descend? = c.walk.map some) ∧
    (∃ n visited, Walking.steps n (Walking.start c) = some ⟨visited, []⟩ ∧
      containsMarkup src c = visited.any (fun place => isMarkup src place.node) ∧
      src.importedBy c = match c.kind == "import_statement", c.node.child? "source" with
        | true, some source => visited.flatMap fun place =>
            (src.boundNames place.node).map fun name => (name, Text.unquote (src.text source))
        | _, _ => []) ∧
    ∃ n visited, Walking.steps n (Walking.start src.top) = some ⟨visited, []⟩ ∧
      src.firstError? = visited.find? (·.node.isError) ∧
      definitionsOf src = dedupe [] (visited.filterMap (definition? src src.exportedNames)) := by
  have hends : ∀ c : Cursor, Walking.steps c.node.size (Walking.start c) = some ⟨c.walk, []⟩ := fun c =>
    Walking.steps_start_iff.mpr ⟨rfl, rfl⟩
  refine ⟨fun n visited => Walking.steps_start_iff, c.walk_eq, ?_, ⟨_, _, hends c, rfl, rfl⟩, _, _, hends src.top, rfl, rfl⟩
  exact ⟨c.node.paths, c.node.pairwise_paths, c.mem_paths_iff, c.map_descend?_paths⟩

end Cursor

end ComponentDocs

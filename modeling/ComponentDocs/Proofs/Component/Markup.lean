import ComponentDocs.Component.Recognition
import ComponentDocs.Proofs.Tree.Enclosing

/-!
# Functions that return markup

Whose return statements make a function one that returns markup: its own ones, and those of the generators and methods
in its body.

* `GivesMarkup`, `OwnMarkup`: a return statement with markup, and a function that has one of its own;
* `mem_returnsOf_iff`: the return statements that the search finds;
* `Cursor.ReturnsPlaced`: return statements stand in bodies, as the language has it;
* **`returnsMarkup_iff_ownMarkup`**: a function returns markup if and only if it has a return statement with markup of
  its own, or a generator or method that it holds outside of other functions and classes has one.
-/

namespace ComponentDocs

open Cursor

variable {src : SourceFile} {node : Node} {ancestors : List Node} {c function body : Cursor}

/-! ## Kinds -/

/-- The kinds of functions besides those that can be components: generators and methods, getters and setters with
them. -/
def generatorAndMethodKinds : List String :=
  ["generator_function_declaration", "generator_function", "method_definition"]

/-- The kinds of nodes that return statements belong to. -/
def functionLikeKinds : List String := functionKinds ++ generatorAndMethodKinds

/-- The kinds of nodes that the search for return statements does not enter. -/
def skippedKinds : List String := functionKinds ++ classKinds ++ ["return_statement"]

/-- The kinds of nodes of which one stands around every return statement, with no other of them in between. -/
def ownerKinds : List String := functionLikeKinds ++ classKinds ++ ["return_statement"]

/-! ## Return statements -/

/-- The place is a return statement with markup somewhere in what it returns. -/
def GivesMarkup (src : SourceFile) (statement : Cursor) : Prop :=
  statement.kind = "return_statement" ∧
    ∃ value ∈ statement.namedChildren, ∃ place ∈ value.walk, isMarkup src place.node = true

/-- A return statement with markup has the function as the nearest function, generator or method above it. -/
def OwnMarkup (src : SourceFile) (function : Cursor) : Prop :=
  ∃ statement ∈ function.walk, GivesMarkup src statement ∧ statement.enclosing? functionLikeKinds = some function

theorem mem_returnsAmong_iff {nodes : List Node} : c ∈ returnsAmong ancestors nodes ↔
    ∃ node ∈ nodes, node.kind ∉ functionKinds ++ classKinds ∧ c ∈ returnsFrom ancestors node := by
  induction nodes with
  | nil => simp [returnsAmong]
  | cons node rest ih =>
    have hkind : (functionKinds.contains node.kind || classKinds.contains node.kind) = true ↔
        node.kind ∈ functionKinds ++ classKinds := by simp
    simp only [returnsAmong, hkind, List.mem_cons, exists_eq_or_imp, ← ih]
    split_ifs with hskipped
    · simp [hskipped]
    · rw [List.mem_append, and_iff_right hskipped]

/-- The search finds a return statement itself, and what it finds in the children otherwise. -/
theorem mem_returnsFrom_iff : c ∈ returnsFrom ancestors node ↔
    if node.kind = "return_statement" then c = ⟨node, ancestors⟩
    else ∃ child ∈ node.children, child.kind ∉ functionKinds ++ classKinds ∧ c ∈ returnsFrom (node :: ancestors) child := by
  cases node with
  | mk kind named missing field start stop children =>
    rw [returnsFrom, Node.kind]
    split_ifs
    · exact List.mem_singleton
    · exact mem_returnsAmong_iff

theorem return_statement_kind_notMem : "return_statement" ∉ functionKinds ++ classKinds := by decide

/-- The search finds the return statements of a tree to which the way is open. -/
theorem mem_returnsFrom_iff_isOpenTo (hkind : node.kind ∉ functionKinds ++ classKinds) :
    c ∈ returnsFrom ancestors node ↔
      c ∈ walkFrom ancestors node ∧ c.kind = "return_statement" ∧ c.IsOpenTo skippedKinds ancestors := by
  induction node using Node.induction generalizing ancestors with
  | step node ih =>
    have hskipped : node.kind ∈ skippedKinds ↔ node.kind = "return_statement" := by
      rw [skippedKinds, List.mem_append, or_iff_right hkind, List.mem_singleton]
    have hopen : ∀ child, c ∈ walkFrom (node :: ancestors) child → (c.IsOpenTo skippedKinds ancestors ↔
        node.kind ≠ "return_statement" ∧ c.IsOpenTo skippedKinds (node :: ancestors)) := fun child hc => by
      rw [isOpenTo_iff_of_suffix (isAbove_of_mem_child hc), hskipped]
    rw [mem_returnsFrom_iff, mem_walkFrom_iff]
    split_ifs with hreturn
    · constructor
      · rintro rfl
        exact ⟨.inl rfl, hreturn, isOpenTo_self _ _⟩
      · rintro ⟨rfl | ⟨child, -, hc⟩, -, hc'⟩
        · rfl
        · exact absurd hreturn ((hopen child hc).mp hc').1
    · constructor
      · rintro ⟨child, hchild, hchildKind, hc⟩
        obtain ⟨hc, hcKind, hc'⟩ := (ih child hchild hchildKind).mp hc
        exact ⟨.inr ⟨child, hchild, hc⟩, hcKind, (hopen child hc).mpr ⟨hreturn, hc'⟩⟩
      · rintro ⟨rfl | ⟨child, hchild, hc⟩, hcKind, hc'⟩
        · exact absurd hcKind hreturn
        · have hc' := ((hopen child hc).mp hc').2
          -- A function or class among the children is no return statement, and the way through it is not open.
          have hchildKind : child.kind ∉ functionKinds ++ classKinds := fun hmem => by
            rcases eq_or_isAbove_of_mem_walkFrom hc with rfl | habove
            · exact return_statement_kind_notMem (hcKind ▸ hmem)
            · exact ((isOpenTo_iff_of_suffix habove).mp hc').1 (List.mem_append_left _ hmem)
          exact ⟨child, hchild, hchildKind, (ih child hchild hchildKind).mpr ⟨hc, hcKind, hc'⟩⟩

/-- The return statements of a block are those below it that no function, class or return statement keeps from it. -/
theorem mem_returnsOf_iff (hblock : body.kind = "statement_block") : c ∈ returnsOf body ↔
    c ∈ body.walk ∧ c.kind = "return_statement" ∧ c.IsOpenTo skippedKinds body.ancestors := by
  apply mem_returnsFrom_iff_isOpenTo
  rw [show body.node.kind = "statement_block" from hblock]
  decide

/-! ## Functions -/

/-- Return statements stand where the language lets them: in the body of a function, generator or method, with no class
and no other return statement in between. -/
def Cursor.ReturnsPlaced (function : Cursor) : Prop :=
  ∀ statement ∈ function.walk, statement.kind = "return_statement" → ∃ owner body,
    statement.enclosing? ownerKinds = some owner ∧ owner.kind ∈ functionLikeKinds ∧
      owner.child? "body" = some body ∧ statement ∈ body.walk

section

variable {statement owner : Cursor}

theorem kind_notMem_skippedKinds (h : owner.kind ∈ generatorAndMethodKinds) : owner.kind ∉ skippedKinds := by
  have hapart : ∀ kind ∈ generatorAndMethodKinds, kind ∉ skippedKinds := by decide
  exact hapart _ h

theorem kind_mem_generatorAndMethodKinds (h : owner.kind ∈ functionLikeKinds) (hskipped : owner.kind ∉ skippedKinds) :
    owner.kind ∈ generatorAndMethodKinds := by
  refine (List.mem_append.mp h).resolve_left fun hfunction => hskipped ?_
  exact List.mem_append_left _ (List.mem_append_left _ hfunction)

/-- A return statement belongs to the nearest function, generator or method above it: it stands in its body, and the way
to it is open. -/
theorem Cursor.ReturnsPlaced.of_enclosing? (h : function.ReturnsPlaced) (hstatement : statement ∈ function.walk)
    (hkind : statement.kind = "return_statement") (howner : statement.enclosing? functionLikeKinds = some owner) :
    (∃ body, owner.child? "body" = some body ∧ statement ∈ body.walk) ∧
      statement.IsOpenTo skippedKinds (owner.node :: owner.ancestors) := by
  obtain ⟨other, body, hother, hfunctionLike, hbody, hmem⟩ := h statement hstatement hkind
  have hnearest := enclosing?_of_subset hother (by decide) hfunctionLike
  obtain rfl : owner = other := Option.some.inj (howner.symm.trans hnearest)
  exact ⟨⟨body, hbody, hmem⟩, (enclosing?_eq_some_iff.mp hother).2.mono (by decide)⟩

end

theorem returnsMarkup_iff (hbody : function.child? "body" = some body) (hblock : body.kind = "statement_block") :
    returnsMarkup src function = true ↔
      ∃ statement ∈ body.walk, GivesMarkup src statement ∧ statement.IsOpenTo skippedKinds body.ancestors := by
  simp only [returnsMarkup, hbody, hblock, if_true, List.any_eq_true, mem_returnsOf_iff hblock, containsMarkup]
  constructor
  · rintro ⟨statement, ⟨hmem, hkind, hopen⟩, hmarkup⟩
    exact ⟨statement, hmem, ⟨hkind, hmarkup⟩, hopen⟩
  · rintro ⟨statement, hmem, ⟨hkind, hmarkup⟩, hopen⟩
    exact ⟨statement, ⟨hmem, hkind, hopen⟩, hmarkup⟩

/-- **A function returns markup if and only if it has a return statement with markup of its own, or a generator or
method has one that stands in its body outside of other functions, classes and return statements.** -/
theorem returnsMarkup_iff_ownMarkup (hplaced : function.ReturnsPlaced) (hfunction : function.kind ∈ functionLikeKinds)
    (hbody : function.child? "body" = some body) (hblock : body.kind = "statement_block") :
    returnsMarkup src function = true ↔ OwnMarkup src function ∨
      ∃ owner ∈ body.walk, owner.kind ∈ generatorAndMethodKinds ∧ owner.IsOpenTo skippedKinds body.ancestors ∧
        OwnMarkup src owner := by
  have hancestors : body.ancestors = function.node :: function.ancestors := by
    obtain ⟨_, -, rfl⟩ := Option.map_eq_some_iff.mp hbody
    rfl
  have hbelow : ∀ c ∈ body.walk, c ∈ function.walk := fun c hc =>
    walk_subset_walk (child?_mem_walk (self_mem_walk function) hbody) hc
  rw [returnsMarkup_iff hbody hblock]
  constructor
  · rintro ⟨statement, hmem, hgives, hopen⟩
    obtain ⟨owner, -, howner, hkind, -, -⟩ := hplaced statement (hbelow statement hmem) hgives.1
    have hnearest := enclosing?_of_subset howner (by decide) hkind
    have habove : function.IsAbove statement := by
      obtain ⟨between, heq, -⟩ := hopen
      exact ⟨between, by rw [heq, hancestors]⟩
    -- The way up from the statement comes to the function, at its owner or behind it.
    rcases enclosing?_eq_or_isAbove hnearest habove hfunction with rfl | hinner
    · exact .inl ⟨statement, hbelow statement hmem, hgives, hnearest⟩
    · rw [IsAbove, ← hancestors] at hinner
      obtain ⟨between, heq, -⟩ := (enclosing?_eq_some_iff.mp hnearest).2
      have howner : owner.IsAbove statement := ⟨between, heq.symm⟩
      obtain ⟨hownerMem, hstatement⟩ := mem_walk_of_isAbove hmem howner hinner
      obtain ⟨hskipped, hownerOpen⟩ := hopen.of_isAbove howner hinner
      exact .inr ⟨owner, hownerMem, kind_mem_generatorAndMethodKinds hkind hskipped, hownerOpen, statement, hstatement,
        hgives, hnearest⟩
  · rintro (⟨statement, hmem, hgives, hnearest⟩ |
      ⟨owner, howner, hkind, hownerOpen, statement, hmem, hgives, hnearest⟩)
    · obtain ⟨⟨body', hbody', hmem'⟩, hopen⟩ := hplaced.of_enclosing? hmem hgives.1 hnearest
      obtain rfl : body = body' := Option.some.inj (hbody.symm.trans hbody')
      exact ⟨statement, hmem', hgives, hancestors ▸ hopen⟩
    · have hmem := walk_subset_walk howner hmem
      have hopen := (hplaced.of_enclosing? (hbelow statement hmem) hgives.1 hnearest).2
      exact ⟨statement, hmem, hgives, hopen.trans (kind_notMem_skippedKinds hkind) hownerOpen⟩

/-! ## A function with a generator -/

/-- The statement `return <div />`, from byte 41 on. -/
def itemsReturn : Node :=
  .mk "return_statement" true false "" 41 55
    [.leaf "return" false "" 41 47,
      .mk "jsx_self_closing_element" true false "" 48 55
        [.leaf "<" false "" 48 49, .leaf "identifier" true "name" 49 52, .leaf "/>" false "" 53 55]]

def itemsBody : Node :=
  .mk "statement_block" true false "body" 39 57 [.leaf "\x7b" false "" 39 40, itemsReturn, .leaf "\x7d" false "" 56 57]

/-- A generator whose body is the statement. -/
def itemsGenerator : Node :=
  .mk "generator_function_declaration" true false "" 21 57
    [.leaf "function" false "" 21 29, .leaf "*" false "" 29 30, .leaf "identifier" true "name" 31 36,
      .mk "formal_parameters" true false "parameters" 36 38 [.leaf "(" false "" 36 37, .leaf ")" false "" 37 38],
      itemsBody]

def outerBody : Node :=
  .mk "statement_block" true false "body" 17 59
    [.leaf "\x7b" false "" 17 18, itemsGenerator, .leaf "\x7d" false "" 58 59]

/-- A function that holds the generator and returns nothing. -/
def outerFunction : Node :=
  .mk "function_declaration" true false "" 0 59
    [.leaf "function" false "" 0 8, .leaf "identifier" true "name" 9 14,
      .mk "formal_parameters" true false "parameters" 14 16 [.leaf "(" false "" 14 15, .leaf ")" false "" 15 16],
      outerBody]

def generatorSource : SourceFile :=
  .ofTree (some "src/widget.js") "function Outer() \x7b\n  function* items() \x7b return <div /> \x7d\n\x7d\n" .none
    (.mk "program" true false "" 0 60 [outerFunction])

def outerPlace : Cursor := generatorSource.top.enter outerFunction

def itemsPlace : Cursor := (outerPlace.enter outerBody).enter itemsGenerator

theorem eq_itemsReturn {statement : Cursor} (hmem : statement ∈ outerPlace.walk)
    (hkind : statement.kind = "return_statement") : statement = (itemsPlace.enter itemsBody).enter itemsReturn := by
  have hreturns : outerPlace.walk.filter (·.kind = "return_statement") =
      [(itemsPlace.enter itemsBody).enter itemsReturn] := rfl
  rw [← List.mem_singleton, ← hreturns]
  exact List.mem_filter.mpr ⟨hmem, decide_eq_true hkind⟩

theorem itemsReturn_mem_walk :
    (itemsPlace.enter itemsBody).enter itemsReturn ∈ (itemsPlace.enter itemsBody).walk :=
  enter_mem_walk (self_mem_walk _) (List.mem_cons_of_mem _ List.mem_cons_self)

theorem returnsPlaced_outerPlace : outerPlace.ReturnsPlaced := fun statement hmem hkind => by
  obtain rfl := eq_itemsReturn hmem hkind
  exact ⟨itemsPlace, itemsPlace.enter itemsBody, rfl, by decide, rfl, itemsReturn_mem_walk⟩

/-- The function has no return statement of its own, but is taken for one that returns markup. -/
theorem returnsMarkup_outerPlace : outerPlace.ReturnsPlaced ∧ outerPlace.kind ∈ functionLikeKinds ∧
    outerPlace.child? "body" = some (outerPlace.enter outerBody) ∧
    (outerPlace.enter outerBody).kind = "statement_block" ∧
    returnsMarkup generatorSource outerPlace = true ∧ ¬ OwnMarkup generatorSource outerPlace := by
  have hitems : itemsPlace ∈ (outerPlace.enter outerBody).walk :=
    enter_mem_walk (self_mem_walk _) (List.mem_cons_of_mem _ List.mem_cons_self)
  have hopen : itemsPlace.IsOpenTo skippedKinds (outerPlace.enter outerBody).ancestors := ⟨[outerBody], rfl, by decide⟩
  have hbody : itemsPlace.child? "body" = some (itemsPlace.enter itemsBody) := rfl
  have hown : OwnMarkup generatorSource itemsPlace :=
    ⟨_, walk_subset_walk (child?_mem_walk (self_mem_walk itemsPlace) hbody) itemsReturn_mem_walk,
      ⟨rfl, by decide +kernel⟩, rfl⟩
  refine ⟨returnsPlaced_outerPlace, by decide, rfl, rfl, ?_, ?_⟩
  · exact (returnsMarkup_iff_ownMarkup returnsPlaced_outerPlace (by decide) rfl rfl).mpr
      (.inr ⟨itemsPlace, hitems, by decide, hopen, hown⟩)
  · rintro ⟨statement, hmem, ⟨hkind, -⟩, hnearest⟩
    obtain rfl := eq_itemsReturn hmem hkind
    have hkinds := congrArg kind (Option.some.inj hnearest)
    exact absurd hkinds (by decide)

end ComponentDocs

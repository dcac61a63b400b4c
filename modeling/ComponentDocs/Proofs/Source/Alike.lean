import ComponentDocs.Documentation.Members
import ComponentDocs.Proofs.Lists
import ComponentDocs.Proofs.Source.Chain

/-!
# Literals of two sources

Two sources may hold the same literal at different places, and everything else that counts for the literal may be the
same as well. What counts is what the names that are spread into it are bound to.

* `SourceFile.Alike`: two places with the same tree and the same texts;
* `SourceFile.Involves`: the names whose values decide what an expression consists of;
* `SourceFile.BoundAlike`: a name has the same value in both sources, or one that is no literal in both;
* `boundAlike_of_declarators`: so it is if the sources declare their variables alike;
* `resolve_alike`: the same literal stands behind alike expressions;
* **`members_alike`**: alike literals have the same entries.
-/

namespace ComponentDocs

instance decidableOptionRel {α β : Type} {R : α → β → Prop} [∀ a b, Decidable (R a b)] :
    ∀ (x : Option α) (y : Option β), Decidable (Option.Rel R x y)
  | none, none => isTrue .none
  | none, some _ => isFalse nofun
  | some _, none => isFalse nofun
  | some a, some b => decidable_of_iff (R a b) ⟨.some, fun | .some h => h⟩

namespace SourceFile

/-! ## Alike nodes -/

section

variable (s t : SourceFile)

mutual

/-- A node of one source and one of another have the same kind, field and text, and so have the nodes below them. -/
def alike : Node → Node → Bool
  | .mk kind named _ field start stop children, other =>
    kind == other.kind && named == other.named && field == other.field
      && s.characters start stop == t.characters other.start other.stop && alikeAll children other.children

/-- As many nodes of one source as of another are alike one by one. -/
def alikeAll : List Node → List Node → Bool
  | [], others => others.isEmpty
  | _ :: _, [] => false
  | node :: rest, other :: others => alike node other && alikeAll rest others

end

/-- The places hold the same tree with the same texts. -/
def Alike (c d : Cursor) : Prop := s.alike t c.node d.node = true

instance (c d : Cursor) : Decidable (s.Alike t c d) := inferInstanceAs (Decidable (_ = true))

end

variable {s t : SourceFile}

theorem alikeAll_iff {nodes others : List Node} :
    s.alikeAll t nodes others = true ↔ List.Forall₂ (s.alike t · ·) nodes others := by
  induction nodes generalizing others with
  | nil => cases others <;> simp [alikeAll]
  | cons node rest ih => cases others <;> simp [alikeAll, ih]

theorem alike_iff {a b : Node} : s.alike t a b = true ↔
    (a.kind = b.kind ∧ a.named = b.named ∧ a.field = b.field ∧ s.text a = t.text b) ∧
      List.Forall₂ (s.alike t · ·) a.children b.children := by
  cases a
  simp [alike, alikeAll_iff, text, String.ofList_inj, Node.kind, Node.named, Node.field, Node.start, Node.stop,
    Node.children, and_assoc]

theorem alike_child? {a b : Node} (h : s.alike t a b = true) (field : String) :
    Option.Rel (s.alike t · ·) (a.child? field) (b.child? field) :=
  rel_find? (fun _ _ hab => by rw [(alike_iff.mp hab).1.2.2.1]) (alike_iff.mp h).2

theorem text?_eq_of_rel {a b : Option Node} (h : Option.Rel (s.alike t · ·) a b) : s.text? a = t.text? b := by
  cases h with
  | none => rfl
  | some hab => exact congrArg some (alike_iff.mp hab).1.2.2.2

namespace Alike

variable {c d : Cursor} (h : s.Alike t c d)
include h

theorem kind : c.kind = d.kind := (alike_iff.mp h).1.1

theorem text : s.text c.node = t.text d.node := (alike_iff.mp h).1.2.2.2

theorem filter {p : Node → Bool} (hp : ∀ a b, s.alike t a b = true → p a = p b) :
    List.Forall₂ (s.Alike t) ((c.node.children.filter p).map c.enter) ((d.node.children.filter p).map d.enter) := by
  rw [List.forall₂_map_left_iff, List.forall₂_map_right_iff]
  exact List.rel_filter (fun a b hab => iff_of_eq (congrArg (· = true) (hp a b hab))) (alike_iff.mp h).2

theorem namedChildren : List.Forall₂ (s.Alike t) c.namedChildren d.namedChildren :=
  h.filter fun _ _ hab => (alike_iff.mp hab).1.2.1

theorem parts : List.Forall₂ (s.Alike t) c.parts d.parts :=
  h.filter fun _ _ hab => by
    obtain ⟨hkind, hnamed, -, -⟩ := (alike_iff.mp hab).1
    rw [Node.isPart, Node.isPart, Node.isComment, Node.isComment, hnamed, hkind]

theorem child? (field : String) : Option.Rel (s.Alike t) (c.child? field) (d.child? field) :=
  rel_map (fun _ _ hab => hab) (alike_child? h field)

end Alike

/-! ## Parentheses -/

mutual

theorem alike_unwrapParensFrom {a b : Node} {ancestors above : List Node} (h : s.alike t a b = true) :
    s.Alike t (Cursor.unwrapParensFrom ancestors a) (Cursor.unwrapParensFrom above b) := by
  obtain ⟨⟨hkind, -, -, -⟩, hchildren⟩ := alike_iff.mp h
  cases a with
  | mk kind named missing field start stop children =>
    cases b with
    | mk kind' named' missing' field' start' stop' children' =>
      obtain rfl : kind = kind' := hkind
      simp only [Cursor.unwrapParensFrom]
      split
      · exact alike_unwrapFirst h hchildren
      · exact h

theorem alike_unwrapFirst {outer around : Node} {ancestors above nodes others : List Node}
    (houter : s.alike t outer around = true) (h : List.Forall₂ (s.alike t · ·) nodes others) :
    s.Alike t (Cursor.unwrapFirst outer ancestors nodes) (Cursor.unwrapFirst around above others) := by
  cases nodes with
  | nil =>
    cases h
    exact houter
  | cons node rest =>
    cases h with
    | cons hnode hrest =>
      simp only [Cursor.unwrapFirst, (alike_iff.mp hnode).1.2.1]
      split
      · exact alike_unwrapParensFrom hnode
      · exact alike_unwrapFirst houter hrest

end

theorem Alike.unwrapParens {c d : Cursor} (h : s.Alike t c d) : s.Alike t c.unwrapParens d.unwrapParens :=
  alike_unwrapParensFrom h

/-! ## Values of names -/

variable (s t) in
/-- A name that stands for an expression, for a value of such a name, or for something that is spread into the literal
that the expression is. -/
inductive Involves : Cursor → String → Prop
  | name {c : Cursor} (hkind : c.unwrapParens.kind = "identifier") : Involves c (s.text c.unwrapParens.node)
  | value {c value : Cursor} {name : String} (hkind : c.unwrapParens.kind = "identifier")
      (hvalue : s.findVariable (s.text c.unwrapParens.node) = some value) (h : Involves value name) : Involves c name
  | spread {c entry argument : Cursor} {name : String} (hkind : c.unwrapParens.kind = "object")
      (hentry : entry ∈ c.unwrapParens.namedChildren) (hspread : entry.kind = "spread_element")
      (hargument : entry.parts.head? = some argument) (h : Involves argument name) : Involves c name

/-- An expression that is neither a name nor an object literal. -/
def IsOther (c : Cursor) : Prop := c.unwrapParens.kind ≠ "identifier" ∧ c.unwrapParens.kind ≠ "object"

instance : DecidablePred IsOther := fun _ => inferInstanceAs (Decidable (_ ∧ _))

variable (s t) in
/-- The expressions are alike, or neither of them leads to an object literal. -/
def SameValue (c d : Cursor) : Prop := s.Alike t c d ∨ IsOther c ∧ IsOther d

instance (c d : Cursor) : Decidable (s.SameValue t c d) := inferInstanceAs (Decidable (_ ∨ _))

variable (s t) in
/-- Both sources give a name the same value, or none. -/
def BoundAlike (name : String) : Prop := Option.Rel (s.SameValue t) (s.findVariable name) (t.findVariable name)

/-! ## Variables -/

variable (s t) in
/-- The declarators have the same name and give it the same value, or none. -/
def DeclareAlike (c d : Cursor) : Prop :=
  Option.Rel (s.alike t · ·) (c.node.child? "name") (d.node.child? "name") ∧
    Option.Rel (s.SameValue t) (c.child? "value") (d.child? "value")

instance (c d : Cursor) : Decidable (s.DeclareAlike t c d) := inferInstanceAs (Decidable (_ ∧ _))

/-- Sources that declare their variables alike give every name the same value. -/
theorem boundAlike_of_declarators
    (h : List.Forall₂ (s.DeclareAlike t) (s.topLevel.flatMap declarators) (t.topLevel.flatMap declarators))
    (name : String) : s.BoundAlike t name := by
  have hlast : Option.Rel (s.DeclareAlike t) (s.declarator? name) (t.declarator? name) :=
    rel_find? (fun c d hcd => by rw [fieldIs, fieldIs, text?_eq_of_rel hcd.1]) (List.forall₂_reverse_iff.mpr h)
  rw [BoundAlike, findVariable, findVariable]
  generalize s.declarator? name = last, t.declarator? name = other at hlast ⊢
  cases hlast with
  | none => exact .none
  | some hcd => exact hcd.2

/-! ## Values behind expressions -/

section

variable {c d : Cursor} {name : String}

theorem Involves.of_unwrapParens_eq (h : c.unwrapParens = d.unwrapParens) (hname : s.Involves d name) :
    s.Involves c name := by
  cases hname with
  | name hkind =>
    rw [← h] at hkind ⊢
    exact .name hkind
  | value hkind hvalue hname =>
    rw [← h] at hkind hvalue
    exact .value hkind hvalue hname
  | spread hkind hentry hspread hargument hname =>
    rw [← h] at hkind hentry
    exact .spread hkind hentry hspread hargument hname

/-- What is involved in an expression is involved in all that lead to it. -/
theorem Involves.of_chain {count : ℕ} (h : s.BindingChain count c d) (hname : s.Involves d name) : s.Involves c name := by
  induction h with
  | here c => exact hname
  | parens hkind hinner _ ih => exact (ih hname).of_unwrapParens_eq (Cursor.unwrapParens_of_head? hkind hinner)
  | name hkind hvalue _ ih =>
    have hself := (isBare_of_identifier hkind).unwrapParens_eq
    rw [← hself] at hkind hvalue
    exact .value hkind (findVariable_eq_some_iff.mpr hvalue) (ih hname)

theorem Involves.of_spread {object entry argument : Cursor} (hkind : object.kind = "object")
    (hentry : entry ∈ object.namedChildren) (hspread : entry.kind = "spread_element")
    (hargument : entry.parts.head? = some argument) (h : s.Involves argument name) : s.Involves object name := by
  have hself : object.unwrapParens = object := Cursor.unwrapParens_of_kind (by rw [hkind]; decide)
  rw [← hself] at hkind hentry
  exact .spread hkind hentry hspread hargument h

theorem Involves.of_resolve (h : s.Involves (s.resolve c) name) : s.Involves c name := by
  obtain ⟨_, -, hchain, -⟩ := exists_chain_resolveUpTo s resolveLimit c
  exact h.of_chain hchain

variable (h : s.SameValue t c d) (hnames : ∀ name, s.Involves c name → s.BoundAlike t name)
include h hnames

theorem resolveUpTo_alike (count : ℕ) : s.Alike t (s.resolveUpTo count c) (t.resolveUpTo count d) ∨
    (s.resolveUpTo count c).kind ≠ "object" ∧ (t.resolveUpTo count d).kind ≠ "object" := by
  induction count generalizing c d with
  | zero => exact h.imp Alike.unwrapParens fun hother => ⟨hother.1.2, hother.2.2⟩
  | succ count ih =>
    rw [resolveUpTo, resolveUpTo]
    -- Alike expressions are the same name or none; what is neither a name nor a literal ends the way in both sources.
    rcases h with halike | ⟨hc, hd⟩
    · have hinner := halike.unwrapParens
      rw [← hinner.kind, ← hinner.text]
      by_cases hkind : c.unwrapParens.kind = "identifier"
      · rw [if_pos hkind, if_pos hkind]
        have hbound := hnames _ (.name hkind)
        rw [BoundAlike] at hbound
        generalize hvalue : s.findVariable (s.text c.unwrapParens.node) = value at hbound ⊢
        generalize t.findVariable (s.text c.unwrapParens.node) = other at hbound ⊢
        cases hbound with
        | none => exact .inl hinner
        | some hsame => exact ih hsame fun name hname => hnames name (.value hkind hvalue hname)
      · rw [if_neg hkind, if_neg hkind]
        exact .inl hinner
    · rw [if_neg hc.1, if_neg hd.1]
      exact .inr ⟨hc.2, hd.2⟩

/-- **The same literal stands behind alike expressions**, or none. -/
theorem resolve_alike : s.Alike t (s.resolve c) (t.resolve d) ∨
    (s.resolve c).kind ≠ "object" ∧ (t.resolve d).kind ≠ "object" := resolveUpTo_alike h hnames resolveLimit

end

/-! ## Entries -/

variable (s t) in
/-- The entries are of one sort and alike. -/
inductive AlikeMember : Member → Member → Prop
  | keyed {c d : Cursor} (h : s.Alike t c d) : AlikeMember (.keyed c) (.keyed d)
  | shorthand {c d : Cursor} (h : s.Alike t c d) : AlikeMember (.shorthand c) (.shorthand d)
  | spread {c d : Cursor} (h : s.Alike t c d) : AlikeMember (.spread c) (.spread d)

section

variable {entry other object same : Cursor} {spread spread' : Cursor → List Member}

theorem entryMembers_alike (h : s.Alike t entry other)
    (hspread : entry.kind = "spread_element" → ∀ c d, entry.parts.head? = some c → s.Alike t c d →
      List.Forall₂ (s.AlikeMember t) (spread c) (spread' d)) :
    List.Forall₂ (s.AlikeMember t) (entryMembers spread entry) (entryMembers spread' other) := by
  rw [entryMembers, entryMembers, ← h.kind]
  split_ifs with hpair hshorthand hkind
  · exact .cons (.keyed h) .nil
  · exact .cons (.shorthand h) .nil
  · have hargument := rel_head? h.parts
    generalize hc : entry.parts.head? = c at hargument ⊢
    generalize other.parts.head? = d at hargument ⊢
    cases hargument with
    | none => exact .nil
    | some hcd => exact hspread hkind _ _ hc hcd
  · exact .nil

theorem flatMap_entryMembers_alike (h : s.Alike t object same)
    (hspread : ∀ entry ∈ object.namedChildren, entry.kind = "spread_element" → ∀ c d, entry.parts.head? = some c →
      s.Alike t c d → List.Forall₂ (s.AlikeMember t) (spread c) (spread' d)) :
    List.Forall₂ (s.AlikeMember t) (object.namedChildren.flatMap (entryMembers spread))
      (same.namedChildren.flatMap (entryMembers spread')) :=
  forall₂_flatMap h.namedChildren fun entry hentry _ halike => entryMembers_alike halike (hspread entry hentry)

theorem spreadMembers_alike (depth : ℕ) {c d : Cursor} (h : s.Alike t c d)
    (hnames : ∀ name, s.Involves c name → s.BoundAlike t name) :
    List.Forall₂ (s.AlikeMember t) (s.spreadMembers depth c) (t.spreadMembers depth d) := by
  induction depth generalizing c d with
  | zero => exact .cons (.spread h) .nil
  | succ depth ih =>
    rw [spreadMembers, spreadMembers]
    rcases resolve_alike (.inl h) hnames with halike | ⟨hc, hd⟩
    · rw [← halike.kind]
      split_ifs with hkind
      · exact flatMap_entryMembers_alike halike fun entry hentry hspread _ _ hargument hcd => ih hcd fun name hname =>
          hnames name (.of_resolve (.of_spread hkind hentry hspread hargument hname))
      · exact .cons (.spread h) .nil
    · rw [if_neg hc, if_neg hd]
      exact .cons (.spread h) .nil

/-- **Alike literals have the same entries** where the names involved in them have the same values. -/
theorem members_alike (hkind : object.kind = "object") (h : s.Alike t object same)
    (hnames : ∀ name, s.Involves object name → s.BoundAlike t name) :
    List.Forall₂ (s.AlikeMember t) (s.members object) (t.members same) :=
  flatMap_entryMembers_alike h fun _ hentry hspread _ _ hargument hcd =>
    spreadMembers_alike spreadDepth hcd fun name hname => hnames name (.of_spread hkind hentry hspread hargument hname)

end

end SourceFile

end ComponentDocs

import ComponentDocs.Proofs.Source.Names

/-!
# The value behind an expression

The value behind an expression is where the way of the expression ends, or the name that it has come to after six
values; so names that lead back to themselves do no harm.

* `resolveUpTo_of_chain`: the value behind an expression is that behind every expression on its way;
* `exists_chain_resolveUpTo`: it lies on the way itself;
* `resolve_eq_iff`: the end of a way is the value if few enough names lead there;
* **`resolve_follows_chain`**: it is the end of the way if at most six names lead there, and else the sixth name.
-/

namespace ComponentDocs

namespace SourceFile

variable {src : SourceFile} {c d value : Cursor} {count : ℕ}

/-! ## The value behind an expression -/

theorem isBare_of_identifier (hkind : c.kind = "identifier") : c.IsBare := by
  intro hparens
  rw [hkind] at hparens
  exact absurd hparens (by decide)

theorem resolveUpTo_succ_of_name (hkind : c.kind = "identifier") (hvalue : src.LastValue (src.text c.node) value)
    (count : ℕ) : src.resolveUpTo (count + 1) c = src.resolveUpTo count value := by
  rw [resolveUpTo, (isBare_of_identifier hkind).unwrapParens_eq, if_pos hkind, findVariable_eq_some_iff.mpr hvalue]

theorem resolveUpTo_of_head? (hkind : c.kind = "parenthesized_expression") (hinner : c.namedChildren.head? = some d)
    (count : ℕ) : src.resolveUpTo count c = src.resolveUpTo count d := by
  cases count <;> rw [resolveUpTo, resolveUpTo, Cursor.unwrapParens_of_head? hkind hinner]

/-- **The value behind an expression is that behind every expression on its way.** -/
theorem resolveUpTo_of_chain (h : src.BindingChain count c d) (more : ℕ) :
    src.resolveUpTo (count + more) c = src.resolveUpTo more d := by
  induction h with
  | here c => rw [Nat.zero_add]
  | parens hkind hinner _ ih => rw [resolveUpTo_of_head? hkind hinner, ih]
  | name hkind hvalue _ ih => rw [Nat.add_right_comm, resolveUpTo_succ_of_name hkind hvalue, ih]

theorem IsChainEnd.resolveUpTo_eq (h : src.IsChainEnd d) (count : ℕ) : src.resolveUpTo count d = d := by
  obtain ⟨hbare, hname⟩ := h
  cases count with
  | zero => exact hbare.unwrapParens_eq
  | succ count =>
    rw [resolveUpTo, hbare.unwrapParens_eq]
    split_ifs with hkind
    · have hnone : src.findVariable (src.text d.node) = none :=
        Option.eq_none_iff_forall_not_mem.mpr fun value hvalue => hname hkind value (findVariable_eq_some_iff.mp hvalue)
      rw [hnone]
    · rfl

variable (src) in
/-- **The value behind an expression lies on its way**, at the end or where no more names are replaced. -/
theorem exists_chain_resolveUpTo (count : ℕ) (c : Cursor) : ∃ used ≤ count,
    src.BindingChain used c (src.resolveUpTo count c) ∧ (src.IsChainEnd (src.resolveUpTo count c) ∨
      used = count ∧ (src.resolveUpTo count c).kind = "identifier") := by
  induction count generalizing c with
  | zero =>
    obtain ⟨hchain, hbare⟩ := chain_unwrapParens src c
    refine ⟨0, Nat.le_refl 0, hchain, ?_⟩
    by_cases hkind : c.unwrapParens.kind = "identifier"
    · exact Or.inr ⟨rfl, hkind⟩
    · exact Or.inl ⟨hbare, fun h => absurd h hkind⟩
  | succ count ih =>
    obtain ⟨hchain, hbare⟩ := chain_unwrapParens src c
    rw [resolveUpTo]
    split_ifs with hkind
    · cases hvalue : src.findVariable (src.text c.unwrapParens.node) with
      | none =>
        refine ⟨0, Nat.zero_le _, hchain, Or.inl ⟨hbare, fun _ value hlast => ?_⟩⟩
        rw [findVariable_eq_some_iff.mpr hlast] at hvalue
        exact absurd hvalue (Option.some_ne_none _)
      | some value =>
        obtain ⟨used, hused, hvalueChain, hend⟩ := ih value
        have hname : src.BindingChain (used + 1) c.unwrapParens (src.resolveUpTo count value) :=
          .name hkind (findVariable_eq_some_iff.mp hvalue) hvalueChain
        have hall := hchain.trans hname
        rw [Nat.zero_add] at hall
        exact ⟨used + 1, Nat.succ_le_succ hused, hall, hend.imp_right (And.imp_left (congrArg (· + 1)))⟩
    · exact ⟨0, Nat.zero_le _, hchain, Or.inl ⟨hbare, fun h => absurd h hkind⟩⟩

/-- The end of the way is the value if at most as many names as are followed lead to it. -/
theorem resolve_eq_iff (hd : src.IsChainEnd d) :
    src.resolve c = d ↔ ∃ count ≤ resolveLimit, src.BindingChain count c d := by
  constructor
  · rintro rfl
    obtain ⟨used, hused, hchain, -⟩ := exists_chain_resolveUpTo src resolveLimit c
    exact ⟨used, hused, hchain⟩
  · rintro ⟨count, hcount, hchain⟩
    obtain ⟨more, hmore⟩ := Nat.exists_eq_add_of_le hcount
    rw [resolve, hmore, resolveUpTo_of_chain hchain, hd.resolveUpTo_eq]

theorem resolve_of_kind (hparens : c.kind ≠ "parenthesized_expression") (hname : c.kind ≠ "identifier") :
    src.resolve c = c :=
  (resolve_eq_iff (isChainEnd_of_kind hparens hname)).mpr ⟨0, Nat.zero_le _, .here c⟩

/-- **The value behind an expression is the end of its way if at most six names lead there, and else the sixth of
them.** It always lies on the way. If the way ends after at most six names, its end is the value, and the value behind
the end is the end itself; if the way goes on, the value is the one name to which exactly six names lead. -/
theorem resolve_follows_chain (src : SourceFile) (c : Cursor) :
    (∃ count ≤ 6, src.BindingChain count c (src.resolve c)) ∧
    (∀ count ≤ 6, ∀ d, src.BindingChain count c d → src.IsChainEnd d → src.resolve c = d ∧ src.resolve d = d) ∧
    ((∀ count ≤ 6, ∀ d, src.BindingChain count c d → ¬ src.IsChainEnd d) →
      ∀ d, src.resolve c = d ↔ src.BindingChain 6 c d ∧ d.kind = "identifier") := by
  obtain ⟨used, hused, hchain, hcases⟩ := exists_chain_resolveUpTo src resolveLimit c
  refine ⟨⟨used, hused, hchain⟩, fun count hcount d hd hend => ?_, fun hgoes d => ⟨?_, ?_⟩⟩
  · exact ⟨(resolve_eq_iff hend).mpr ⟨count, hcount, hd⟩, hend.resolveUpTo_eq resolveLimit⟩
  · rintro rfl
    obtain ⟨rfl, hkind⟩ := hcases.resolve_left (hgoes used hused _ hchain)
    exact ⟨hchain, hkind⟩
  · rintro ⟨hd, hkind⟩
    exact (resolveUpTo_of_chain hd 0).trans (isBare_of_identifier hkind).unwrapParens_eq

theorem BindingChain.eq_of_loop (hkind : c.kind = "identifier") (hloop : src.findVariable (src.text c.node) = some c)
    (h : src.BindingChain count c d) : d = c := by
  induction h with
  | here c => rfl
  | parens hparens =>
    rw [hkind] at hparens
    exact absurd hparens (by decide)
  | name _ hvalue _ ih =>
    obtain rfl := Option.some.inj (hloop.symm.trans (findVariable_eq_some_iff.mpr hvalue))
    exact ih hkind hloop

/-- The source `const a = a`, `const b = (c)` and `const c = 1`, on three lines. -/
def loopSource : SourceFile :=
  let declaration (start stop : ℕ) (value : Node) : Node :=
    .mk "lexical_declaration" true false "" start stop
      [.leaf "const" false "kind" start (start + 5),
        .mk "variable_declarator" true false "" (start + 6) stop
          [.leaf "identifier" true "name" (start + 6) (start + 7), .leaf "=" false "" (start + 8) (start + 9), value]]
  .ofTree (some "a.js") "const a = a\nconst b = (c)\nconst c = 1\n" .none
    (.mk "program" true false "" 0 38
      [declaration 0 11 (.leaf "identifier" true "value" 10 11),
        declaration 12 25 (.mk "parenthesized_expression" true false "value" 22 25
          [.leaf "(" false "" 22 23, .leaf "identifier" true "" 23 24, .leaf ")" false "" 24 25]),
        declaration 26 37 (.leaf "number" true "value" 36 37)])

/-- The name that stands for itself, and the number in parentheses behind another one. -/
theorem resolve_loopSource : ∃ name parens number, loopSource.findVariable "a" = some name ∧
    loopSource.findVariable "b" = some parens ∧ loopSource.findVariable "c" = some number ∧
    (loopSource.resolve name = name ∧ loopSource.BindingChain 6 name name) ∧
    loopSource.BindingChain 1 parens number ∧ loopSource.resolve parens = number ∧
    loopSource.resolve number = number := by
  have hsome : ∀ x ∈ ["a", "b", "c"], (loopSource.findVariable x).isSome := by decide +kernel
  obtain ⟨name, hname⟩ := Option.isSome_iff_exists.mp (hsome "a" (by decide))
  obtain ⟨parens, hparens⟩ := Option.isSome_iff_exists.mp (hsome "b" (by decide))
  obtain ⟨number, hnumber⟩ := Option.isSome_iff_exists.mp (hsome "c" (by decide))
  have hall : (loopSource.findVariable "a").all (fun v => v.kind = "identifier" ∧ loopSource.text v.node = "a") ∧
      (loopSource.findVariable "b").all (fun v => v.kind = "parenthesized_expression" ∧ v.namedChildren.head?.any
        fun inner => inner.kind = "identifier" ∧ loopSource.text inner.node = "c") ∧
      (loopSource.findVariable "c").all (fun v => v.kind = "number") := by decide +kernel
  simp only [hname, hparens, hnumber, Option.all_some, decide_eq_true_eq, Option.any_eq_true] at hall
  obtain ⟨⟨hkind, htext⟩, ⟨hparensKind, inner, hinner, hinnerKind, hinnerText⟩, hnumberKind⟩ := hall
  refine ⟨name, parens, number, hname, hparens, hnumber, ?_, ?_⟩
  · have hloop : loopSource.findVariable (loopSource.text name.node) = some name := htext ▸ hname
    have hgoes : ∀ count ≤ 6, ∀ d, loopSource.BindingChain count name d → ¬ loopSource.IsChainEnd d := by
      intro count _ d hd hend
      obtain rfl := hd.eq_of_loop hkind hloop
      exact hend.2 hkind d (findVariable_eq_some_iff.mp hloop)
    obtain ⟨used, -, hchain⟩ := (resolve_follows_chain loopSource name).1
    have hself := hchain.eq_of_loop hkind hloop
    exact ⟨hself, (((resolve_follows_chain loopSource name).2.2 hgoes name).mp hself).1⟩
  · have hvalue : loopSource.LastValue (loopSource.text inner.node) number :=
      findVariable_eq_some_iff.mp (hinnerText ▸ hnumber)
    have hchain : loopSource.BindingChain 1 parens number :=
      .parens hparensKind hinner (.name hinnerKind hvalue (.here number))
    have hend : loopSource.IsChainEnd number :=
      isChainEnd_of_kind (by rw [hnumberKind]; decide) (by rw [hnumberKind]; decide)
    exact ⟨hchain, (resolve_follows_chain loopSource parens).2.1 1 (by decide) number hchain hend⟩

end SourceFile

end ComponentDocs

import ComponentDocs.Proofs.Fields
import ComponentDocs.Source.Bindings

/-!
# Imported names

From which module a name of a source is imported.

* `SourceFile.Binds`: the names that the parts of an import bind;
* `SourceFile.ImportsFrom`: the names that a statement imports from its module;
* **`get?_imports_iff`**: of several imports of a name the last counts.
-/

namespace ComponentDocs.SourceFile

variable (src : SourceFile)

/-! ## One statement -/

/-- A part of an import binds a name: the default import, the namespace, or one import of a list, under the name that
it is given if it is given one. -/
inductive Binds : Node → String → Prop
  | default {clause name : Node} (hkind : clause.kind = "import_clause") (hname : name ∈ clause.namedChildren)
      (hidentifier : name.kind = "identifier") : Binds clause (src.text name)
  | namespace {part name : Node} (hkind : part.kind = "namespace_import")
      (hname : part.namedChildren.find? (·.kind == "identifier") = some name) : Binds part (src.text name)
  | renamed {specifier name : Node} (hkind : specifier.kind = "import_specifier")
      (halias : specifier.child? "alias" = some name) : Binds specifier (src.text name)
  | named {specifier name : Node} (hkind : specifier.kind = "import_specifier")
      (halias : specifier.child? "alias" = none) (hname : specifier.child? "name" = some name) :
      Binds specifier (src.text name)

/-- The statement imports a name from a module. -/
def ImportsFrom (statement : Cursor) (name module : String) : Prop :=
  statement.kind = "import_statement" ∧ (∃ c ∈ statement.walk, Binds src c.node name) ∧
    ∃ source, statement.node.child? "source" = some source ∧ Text.unquote (src.text source) = module

variable {src} {statement : Cursor} {name module other : String}

theorem mem_boundNames_iff {node : Node} : name ∈ src.boundNames node ↔ Binds src node name := by
  constructor
  · intro h
    rw [boundNames] at h
    split_ifs at h with hspecifier hnamespace hclause
    · obtain ⟨part, hpart, rfl⟩ := Option.map_eq_some_iff.mp (Option.mem_toList.mp h)
      cases halias : node.child? "alias" with
      | some given =>
        rw [halias] at hpart
        cases hpart
        exact .renamed hspecifier halias
      | none =>
        rw [halias] at hpart
        exact .named hspecifier halias hpart
    · obtain ⟨part, hpart, rfl⟩ := Option.map_eq_some_iff.mp (Option.mem_toList.mp h)
      exact .namespace hnamespace hpart
    · obtain ⟨part, hpart, rfl⟩ := List.mem_map.mp h
      obtain ⟨hpart, hkind⟩ := List.mem_filter.mp hpart
      exact .default hclause hpart (eq_of_beq hkind)
    · exact absurd h List.not_mem_nil
  · rintro (⟨hkind, hname, hidentifier⟩ | ⟨hkind, hname⟩ | ⟨hkind, halias⟩ | ⟨hkind, halias, hname⟩)
    · rw [boundNames, hkind]
      exact List.mem_map_of_mem (List.mem_filter.mpr ⟨hname, beq_iff_eq.mpr hidentifier⟩)
    · rw [boundNames, hkind, hname]
      exact List.mem_singleton_self _
    · rw [boundNames, hkind, halias]
      exact List.mem_singleton_self _
    · rw [boundNames, hkind, halias, hname]
      exact List.mem_singleton_self _

theorem mem_importedBy_iff : (name, module) ∈ src.importedBy statement ↔ ImportsFrom src statement name module := by
  rw [importedBy, ImportsFrom]
  cases hkind : statement.kind == "import_statement" with
  | false => simpa using fun h => absurd h (ne_of_beq_false hkind)
  | true =>
    cases hsource : statement.node.child? "source" with
    | none => simp
    | some source =>
      simp only [List.mem_flatMap, List.mem_map, Prod.mk.injEq, mem_boundNames_iff, Option.some.injEq]
      constructor
      · rintro ⟨c, hc, bound, hbound, rfl, rfl⟩
        exact ⟨eq_of_beq hkind, ⟨c, hc, hbound⟩, source, rfl, rfl⟩
      · rintro ⟨-, ⟨c, hc, hbound⟩, source, rfl, rfl⟩
        exact ⟨c, hc, name, hbound, rfl, rfl⟩

theorem ImportsFrom.module_eq {more : String} (h : ImportsFrom src statement name module)
    (hmore : ImportsFrom src statement more other) : module = other := by
  obtain ⟨-, -, source, hsource, rfl⟩ := h
  obtain ⟨-, -, source', hsource', rfl⟩ := hmore
  rw [hsource] at hsource'
  rw [Option.some.inj hsource']

theorem get?_reverse_importedBy :
    Fields.get? (src.importedBy statement).reverse name = some module ↔ ImportsFrom src statement name module := by
  constructor
  · exact fun h => mem_importedBy_iff.mp (List.mem_reverse.mp (Fields.mem_of_get? h))
  · intro h
    cases hget : Fields.get? (src.importedBy statement).reverse name with
    | none =>
      have hmem := List.mem_reverse.mpr (mem_importedBy_iff.mpr h)
      exact absurd (List.mem_map_of_mem (f := Prod.fst) hmem) (Fields.get?_eq_none_iff.mp hget)
    | some found =>
      have hfound := mem_importedBy_iff.mp (List.mem_reverse.mp (Fields.mem_of_get? hget))
      rw [hfound.module_eq h]

/-! ## All statements -/

variable (src) in
/-- The last statement that imports a name imports it from a module. -/
def BoundTo (name module : String) : Prop :=
  ∃ before statement after, src.top.namedChildren = before ++ statement :: after ∧
    ImportsFrom src statement name module ∧ ∀ later ∈ after, ∀ other, ¬ ImportsFrom src later name other

/-- **Of several imports of a name the last counts.** -/
theorem get?_imports_iff : Fields.get? src.imports name = some module ↔ BoundTo src name module := by
  have hnone (later : Cursor) : Fields.get? (src.importedBy later).reverse name = none ↔
      ∀ other, ¬ ImportsFrom src later name other := by
    simp only [← get?_reverse_importedBy, Option.eq_none_iff_forall_ne_some, Ne]
  rw [imports, Fields.get?_ofList, List.reverse_flatMap, Fields.get?_flatMap, List.findSome?_eq_some_iff]
  simp only [Function.comp_apply, get?_reverse_importedBy, hnone]
  constructor
  · rintro ⟨after, statement, before, heq, himports, hafter⟩
    refine ⟨before.reverse, statement, after.reverse, ?_, himports, fun later hlater => hafter later (by simpa using hlater)⟩
    simpa using congrArg List.reverse heq
  · rintro ⟨before, statement, after, heq, himports, hafter⟩
    refine ⟨after.reverse, statement, before.reverse, by simp [heq], himports, fun later hlater => hafter later ?_⟩
    simpa using hlater

end ComponentDocs.SourceFile

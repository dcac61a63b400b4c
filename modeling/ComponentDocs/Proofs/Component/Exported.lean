import ComponentDocs.Proofs.Component.Way

/-!
# Exported definitions

The flag of a definition against what its module exports.

* `DefaultExport`, `ClauseExport`, `AssignmentExport`: the statements that export a node by reference;
* `SourceFile.Exports`: what the module exports, inline or by reference;
* `mem_exportedNames_iff`: the names that are read off the statements;
* **`exported_iff`**: when a definition is flagged, and when the flag says what the module exports.
-/

namespace ComponentDocs

variable {src : SourceFile} {c : Cursor} {statement ref : Node} {name : String}

/-! ## Exports by reference -/

/-- The statement is `export default ref`. -/
def DefaultExport (statement ref : Node) : Prop :=
  statement.kind = "export_statement" ∧ statement.child? "value" = some ref

/-- The statement is `export { ref }`, among other entries and maybe of another module. -/
def ClauseExport (statement ref : Node) : Prop :=
  statement.kind = "export_statement" ∧ ∃ clause ∈ statement.namedChildren, clause.kind = "export_clause" ∧
    ∃ specifier ∈ clause.namedChildren, specifier.child? "name" = some ref

/-- The statement takes what it exports from another module. -/
def FromModule (statement : Node) : Prop := (statement.child? "source").isSome = true

/-- The text is `module.exports` or `exports.key`. -/
def IsExportTarget (text : String) : Prop := text = "module.exports" ∨ ∃ key, text = "exports." ++ key

/-- The node assigns to `module.exports` or to `exports.key`. -/
def ExportAssignment (src : SourceFile) (node : Node) : Prop :=
  node.kind = "assignment_expression" ∧ ∃ left, node.child? "left" = some left ∧ IsExportTarget (src.text left)

/-- The statement is `module.exports = ref` or `exports.key = ref`. -/
def AssignmentExport (src : SourceFile) (statement ref : Node) : Prop :=
  statement.kind = "expression_statement" ∧ ∃ assignment, statement.namedChildren.head? = some assignment ∧
    ExportAssignment src assignment ∧ assignment.child? "right" = some ref

/-- The statement exports a value of its own module by reference. -/
def LocalExport (src : SourceFile) (statement ref : Node) : Prop :=
  DefaultExport statement ref ∨ (ClauseExport statement ref ∧ ¬ FromModule statement) ∨
    AssignmentExport src statement ref

/-- What a module exports of the component at a place: it stands under an export, its bound name is exported by
reference, or it is assigned to a place that the module exports from. -/
inductive SourceFile.Exports (src : SourceFile) (c : Cursor) : Prop
  | inline (hexport : ∃ node ∈ c.way, node.kind = "export_statement")
  | byName {name : String} (hname : src.boundName? c = some name)
    (hexport : ∃ statement ∈ src.root.namedChildren, ∃ ref, src.text ref = name ∧ LocalExport src statement ref)
  | assigned (hexport : ∃ node ∈ c.way, ExportAssignment src node)

/-! ## The names that are read -/

theorem isExportPlace_iff {text : String} : SourceFile.isExportPlace text = true ↔ IsExportTarget text := by
  have hprefix : "exports.".toList <+: text.toList ↔ ∃ key, text = "exports." ++ key := by
    constructor
    · rintro ⟨key, hkey⟩
      exact ⟨String.ofList key, String.toList_inj.mp (hkey.symm.trans (by simp))⟩
    · rintro ⟨key, rfl⟩
      rw [String.toList_append]
      exact List.prefix_append _ _
  rw [SourceFile.isExportPlace, Bool.or_eq_true, beq_iff_eq, List.isPrefixOf_iff_prefix, hprefix, IsExportTarget]

theorem mem_identifier?_iff {node : Option Node} :
    name ∈ (src.identifier? node).toList ↔ ∃ ref, node = some ref ∧ ref.kind = "identifier" ∧ src.text ref = name := by
  cases node with
  | none => simp [SourceFile.identifier?, SourceFile.text?]
  | some ref =>
    by_cases hkind : ref.kind = "identifier"
    · simp [SourceFile.identifier?, SourceFile.text?, Option.filter, hkind, eq_comm]
    · simp [SourceFile.identifier?, SourceFile.text?, Option.filter, hkind]

theorem mem_clauseNames_iff (hkind : statement.kind = "export_statement") :
    name ∈ src.clauseNames statement ↔ ∃ ref, ClauseExport statement ref ∧ src.text ref = name := by
  simp only [SourceFile.clauseNames, List.mem_flatMap, List.mem_filter, List.mem_filterMap, beq_iff_eq,
    SourceFile.text?, Option.map_eq_some_iff, ClauseExport]
  constructor
  · rintro ⟨clause, ⟨hclause, hclauseKind⟩, specifier, hspecifier, ref, href, htext⟩
    exact ⟨ref, ⟨hkind, clause, hclause, hclauseKind, specifier, hspecifier, href⟩, htext⟩
  · rintro ⟨ref, ⟨-, clause, hclause, hclauseKind, specifier, hspecifier, href⟩, htext⟩
    exact ⟨clause, ⟨hclause, hclauseKind⟩, specifier, hspecifier, ref, href, htext⟩

/-- The statement names something that it exports: an entry of a clause, or a plain name as a value. -/
def NamesExport (src : SourceFile) (statement ref : Node) : Prop :=
  ClauseExport statement ref ∨
    (ref.kind = "identifier" ∧ (DefaultExport statement ref ∨ AssignmentExport src statement ref))

theorem assignment?_eq_some_iff {place assignment : Cursor} :
    SourceFile.assignment? place = some assignment ↔ place.kind = "expression_statement" ∧
      ∃ node, place.node.namedChildren.head? = some node ∧ node.kind = "assignment_expression" ∧
        place.enter node = assignment := by
  unfold SourceFile.assignment?
  rw [Cursor.namedChildren, List.head?_map]
  split_ifs with hkind
  · simp only [hkind, true_and, Option.filter_eq_some_iff, Option.map_eq_some_iff, beq_iff_eq]
    constructor
    · rintro ⟨⟨node, hhead, rfl⟩, hnode⟩
      exact ⟨node, hhead, hnode, rfl⟩
    · rintro ⟨node, hhead, hnode, rfl⟩
      exact ⟨⟨node, hhead, rfl⟩, hnode⟩
  · simp [hkind]

/-- A missing node is no place that a module exports from. -/
theorem isExportPlace_text?_iff {node : Option Node} :
    SourceFile.isExportPlace ((src.text? node).getD "") = true ↔
      ∃ left, node = some left ∧ IsExportTarget (src.text left) := by
  cases node with
  | none => exact iff_of_false (by rw [SourceFile.text?, Option.map_none]; decide) (by simp)
  | some left => simp [SourceFile.text?, isExportPlace_iff]

theorem assignmentExport_iff {place : Cursor} :
    AssignmentExport src place.node ref ↔ ∃ assignment, SourceFile.assignment? place = some assignment ∧
      SourceFile.isExportPlace ((src.text? (assignment.node.child? "left")).getD "") = true ∧
      assignment.node.child? "right" = some ref := by
  simp only [assignment?_eq_some_iff, isExportPlace_text?_iff]
  constructor
  · rintro ⟨hkind, node, hhead, ⟨hnode, htarget⟩, hright⟩
    exact ⟨place.enter node, ⟨hkind, node, hhead, hnode, rfl⟩, htarget, hright⟩
  · rintro ⟨-, ⟨hkind, node, hhead, hnode, rfl⟩, htarget, hright⟩
    exact ⟨hkind, node, hhead, ⟨hnode, htarget⟩, hright⟩

theorem mem_exportedBy_iff {place : Cursor} :
    name ∈ src.exportedBy place ↔ ∃ ref, src.text ref = name ∧ NamesExport src place.node ref := by
  unfold SourceFile.exportedBy
  split_ifs with hkind
  · rw [List.mem_append, mem_identifier?_iff, mem_clauseNames_iff hkind]
    constructor
    · rintro (⟨ref, hvalue, hplain, htext⟩ | ⟨ref, hclause, htext⟩)
      · exact ⟨ref, htext, Or.inr ⟨hplain, Or.inl ⟨hkind, hvalue⟩⟩⟩
      · exact ⟨ref, htext, Or.inl hclause⟩
    · rintro ⟨ref, htext, hclause | ⟨hplain, ⟨-, hvalue⟩ | ⟨hother, -⟩⟩⟩
      · exact Or.inr ⟨ref, hclause, htext⟩
      · exact Or.inl ⟨ref, hvalue, hplain, htext⟩
      · exact absurd (hkind.symm.trans hother) (by decide)
  · have hnames : ∀ ref, NamesExport src place.node ref ↔
        ref.kind = "identifier" ∧ AssignmentExport src place.node ref := fun ref => by
      simp only [NamesExport, ClauseExport, DefaultExport]
      simp [show place.node.kind ≠ "export_statement" from hkind]
    simp only [hnames, assignmentExport_iff]
    cases SourceFile.assignment? place with
    | none => simp
    | some assignment =>
      simp only [Option.some.injEq, exists_eq_left']
      split_ifs with htarget
      · rw [mem_identifier?_iff]
        constructor
        · rintro ⟨ref, hright, hplain, htext⟩
          exact ⟨ref, htext, hplain, htarget, hright⟩
        · rintro ⟨ref, htext, hplain, -, hright⟩
          exact ⟨ref, hright, hplain, htext⟩
      · simp [htarget]

/-- The names that are read are those of the entries of all clauses and of the plain names that are exported as
values. -/
theorem mem_exportedNames_iff :
    name ∈ src.exportedNames ↔
      ∃ statement ∈ src.root.namedChildren, ∃ ref, src.text ref = name ∧ NamesExport src statement ref := by
  simp only [SourceFile.exportedNames, List.mem_flatMap, mem_exportedBy_iff]
  constructor
  · rintro ⟨place, hplace, hnames⟩
    obtain ⟨statement, hstatement, rfl⟩ := List.mem_map.mp hplace
    exact ⟨statement, hstatement, hnames⟩
  · rintro ⟨statement, hstatement, hnames⟩
    exact ⟨src.top.enter statement, List.mem_map.mpr ⟨statement, hstatement, rfl⟩, hnames⟩

/-! ## The flag -/

/-- What exports the bound name of a place by reference is a plain name or an entry of a clause of this module. -/
def SourceFile.NamesLocally (src : SourceFile) (c : Cursor) : Prop :=
  ∀ statement ∈ src.root.namedChildren, ∀ ref, src.boundName? c = some (src.text ref) →
    (ClauseExport statement ref → ¬ FromModule statement) ∧
      (DefaultExport statement ref ∨ AssignmentExport src statement ref → ref.kind = "identifier")

/-- **A definition is flagged if an export is on its way up, or a statement names its bound name as an export.** That
is what the module exports, unless the component is assigned to `module.exports` or `exports.key` on its way up, or its
bound name is named in a clause of another module or is exported as a value that is no plain name. -/
theorem exported_iff {definition : Definition} (hdefinition : definition ∈ definitionsOf src) :
    ∃ c ∈ src.top.walk, Defines src c definition ∧ definition.name = src.boundName? c ∧
      (definition.exported = true ↔
        (∃ node ∈ c.way, node.kind = "export_statement") ∨
          ∃ statement ∈ src.root.namedChildren, ∃ ref, src.boundName? c = some (src.text ref) ∧
            NamesExport src statement ref) ∧
      ((∀ node ∈ c.way, ¬ ExportAssignment src node) → src.NamesLocally c →
        (definition.exported = true ↔ src.Exports c)) := by
  obtain ⟨c, hc, hsome⟩ := exists_of_mem_definitionsOf hdefinition
  obtain ⟨-, -, hname, hexported⟩ := definition?_eq_some hsome
  have hflag : definition.exported = true ↔
      (∃ node ∈ c.way, node.kind = "export_statement") ∨
        ∃ statement ∈ src.root.namedChildren, ∃ ref, src.boundName? c = some (src.text ref) ∧
          NamesExport src statement ref := by
    simp only [hexported, Bool.or_eq_true, List.any_eq_true, beq_iff_eq, Option.any_eq_true, List.contains_iff_mem,
      mem_exportedNames_iff]
    refine or_congr Iff.rfl ?_
    constructor
    · rintro ⟨name, hbound, statement, hstatement, ref, rfl, hnames⟩
      exact ⟨statement, hstatement, ref, hbound, hnames⟩
    · rintro ⟨statement, hstatement, ref, hbound, hnames⟩
      exact ⟨_, hbound, statement, hstatement, ref, rfl, hnames⟩
  refine ⟨c, hc, defines_of_definition? hsome, hname, hflag, fun hapart hlocal => hflag.trans ?_⟩
  constructor
  · rintro (hinline | ⟨statement, hstatement, ref, hbound, hnames⟩)
    · exact .inline hinline
    · refine .byName hbound ⟨statement, hstatement, ref, rfl, ?_⟩
      rcases hnames with hclause | ⟨-, hdefault | hassignment⟩
      · exact Or.inr (Or.inl ⟨hclause, (hlocal statement hstatement ref hbound).1 hclause⟩)
      · exact Or.inl hdefault
      · exact Or.inr (Or.inr hassignment)
  · rintro (hinline | ⟨hbound, statement, hstatement, ref, rfl, hlocalExport⟩ | ⟨node, hnode, hassignment⟩)
    · exact Or.inl hinline
    · have hplain := (hlocal statement hstatement ref hbound).2
      refine Or.inr ⟨statement, hstatement, ref, hbound, ?_⟩
      rcases hlocalExport with hdefault | ⟨hclause, -⟩ | hassignment
      · exact Or.inr ⟨hplain (Or.inl hdefault), Or.inl hdefault⟩
      · exact Or.inl hclause
      · exact Or.inr ⟨hplain (Or.inr hassignment), Or.inr hassignment⟩
    · exact absurd hassignment (hapart node hnode)

/-- The source `class C extends Component {}` and `module.exports = C`, on two lines. -/
def assignedSource : SourceFile :=
  let component : Node := .mk "class_declaration" true false "" 0 28
    [.leaf "class" false "" 0 5, .leaf "identifier" true "name" 6 7,
      .mk "class_heritage" true false "" 8 25 [.leaf "extends" false "" 8 15, .leaf "identifier" true "" 16 25],
      .leaf "class_body" true "body" 26 28]
  let assignment : Node := .mk "assignment_expression" true false "" 29 47
    [.leaf "member_expression" true "left" 29 43, .leaf "=" false "" 44 45, .leaf "identifier" true "right" 46 47]
  .ofTree (some "a.js") "class C extends Component {}\nmodule.exports = C\n" .none
    (.mk "program" true false "" 0 48 [component, .mk "expression_statement" true false "" 29 47 [assignment]])

theorem exported_assignedSource : ∃ definition ∈ definitionsOf assignedSource, definition.exported = true ∧
    ∃ c ∈ assignedSource.top.walk, Defines assignedSource c definition ∧ definition.name = some "C" ∧
      assignedSource.Exports c := by
  have hlist : (definitionsOf assignedSource).map (fun d => (d.exported, d.name)) = [(true, some "C")] := by
    decide +kernel
  obtain ⟨definition, hsingle, hflag⟩ := List.map_eq_singleton_iff.mp hlist
  have hmem : definition ∈ definitionsOf assignedSource := hsingle ▸ List.mem_singleton_self _
  obtain ⟨hexported, hname⟩ := Prod.mk.inj hflag
  obtain ⟨c, hc, hdefines, -, -, hagree⟩ := exported_iff hmem
  have hways : ∀ c ∈ assignedSource.top.walk, c.kind ∈ definingKinds → ∀ node ∈ c.way,
      node.kind ≠ "assignment_expression" := by decide +kernel
  have hstatements : ∀ statement ∈ assignedSource.root.namedChildren, statement.kind ≠ "export_statement" ∧
      ∀ assignment ∈ statement.namedChildren.head?, ∀ ref ∈ assignment.child? "right", ref.kind = "identifier" := by
    decide +kernel
  refine ⟨definition, hmem, hexported, c, hc, hdefines, hname, (hagree ?_ ?_).mp hexported⟩
  · rintro node hnode ⟨hkind, -⟩
    exact hways c hc hdefines.kind_mem node hnode hkind
  · intro statement hstatement ref _
    obtain ⟨hkind, hright⟩ := hstatements statement hstatement
    refine ⟨fun hclause => absurd hclause.1 hkind, ?_⟩
    rintro (hdefault | ⟨-, assignment, hhead, -, href⟩)
    · exact absurd hdefault.1 hkind
    · exact hright assignment hhead ref href

end ComponentDocs

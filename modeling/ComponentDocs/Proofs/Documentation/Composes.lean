import ComponentDocs.Documentation.Handler
import ComponentDocs.Proofs.Documentation.Spreads
import ComponentDocs.Proofs.Source.Imports

/-!
# Modules whose props are taken over

What becomes of the spreads in the literal that declares the types of the props.

* `Node.HeadOf`, `leftmostObject_eq_some_iff`: the head of a chain of member accesses;
* `SourceFile.Treated`: a spread is entered, recorded as a module, or ignored;
* `existsUnique_treated`: exactly one of them;
* `SourceFile.RecordedModules`: the modules that the spreads of some entries record;
* **`Handler.composition_eq`**: the documentation has them, each at its first place.
-/

namespace ComponentDocs

/-! ## Heads -/

namespace Node

/-- The head of an expression: the leftmost object of a chain of member accesses, or the expression itself. -/
inductive HeadOf : Node → Node → Prop
  | plain {node : Node} (hkind : node.kind ≠ "member_expression") : HeadOf node node
  | access {node object head : Node} (hkind : node.kind = "member_expression")
      (hobject : node.child? "object" = some object) (h : HeadOf object head) : HeadOf node head

theorem leftmostObjectIn_eq (nodes : List Node) :
    leftmostObjectIn nodes = (nodes.find? (·.field == "object")).bind leftmostObject := by
  induction nodes with
  | nil => rfl
  | cons node rest ih =>
    rw [leftmostObjectIn, List.find?_cons, ih]
    by_cases h : node.field = "object"
    · rw [if_pos h, h]
      rfl
    · rw [if_neg h, beq_false_of_ne h]

theorem leftmostObject_eq (node : Node) : node.leftmostObject =
    if node.kind = "member_expression" then (node.child? "object").bind leftmostObject else some node := by
  cases node
  rw [leftmostObject, leftmostObjectIn_eq]
  rfl

theorem leftmostObject_eq_some_iff {node head : Node} : node.leftmostObject = some head ↔ HeadOf node head := by
  constructor
  · intro h
    induction node using Node.induction generalizing head with
    | step node ih =>
      rw [leftmostObject_eq] at h
      split_ifs at h with hkind
      · obtain ⟨object, hobject, hhead⟩ := Option.bind_eq_some_iff.mp h
        exact .access hkind hobject (ih object (List.mem_of_find?_eq_some hobject) hhead)
      · cases h
        exact .plain hkind
  · intro h
    induction h with
    | plain hkind => rw [leftmostObject_eq, if_neg hkind]
    | access hkind hobject _ ih => rw [leftmostObject_eq, if_pos hkind, hobject, Option.bind_some, ih]

end Node

/-! ## What becomes of a spread -/

/-- What becomes of a spread: the literal it spreads is entered, a module is recorded, or it is ignored. -/
inductive Treatment where
  | entered (object : Cursor)
  | recorded (module : String)
  | ignored

namespace SourceFile

variable (src : SourceFile)

/-- The spread is not entered: no levels are left, or it is no spread of a literal of the source. -/
def NotEntered (levels : ℕ) (entry : Cursor) : Prop :=
  entry.kind = "spread_element" ∧ (levels = 0 ∨ ∀ object, ¬ src.SpreadsObject resolveLimit entry object)

/-- The argument of the spread has a head that is imported from a module. -/
def SpreadsImport (entry : Cursor) (module : String) : Prop :=
  ∃ argument head, entry.parts.head? = some argument ∧ Node.HeadOf argument.node head ∧
    src.BoundTo (src.text head) module ∧ module ≠ ""

/-- What becomes of a spread when some levels of literals may still be entered. -/
inductive Treated (levels : ℕ) (entry : Cursor) : Treatment → Prop
  | entered {object : Cursor} (hlevels : levels ≠ 0) (hspread : src.SpreadsObject resolveLimit entry object) :
      Treated levels entry (.entered object)
  | recorded {module : String} (hentered : src.NotEntered levels entry) (himport : src.SpreadsImport entry module) :
      Treated levels entry (.recorded module)
  | ignored (hentered : src.NotEntered levels entry) (himport : ∀ module, ¬ src.SpreadsImport entry module) :
      Treated levels entry .ignored

variable {src} {levels : ℕ} {entry object : Cursor} {module : String}

theorem NotEntered.not_entered (h : src.NotEntered levels entry) (hlevels : levels ≠ 0) :
    ¬ src.SpreadsObject resolveLimit entry object := h.2.resolve_left hlevels object

theorem SpreadsImport.eq {other : String} (h : src.SpreadsImport entry module)
    (hother : src.SpreadsImport entry other) : module = other := by
  obtain ⟨argument, head, hargument, hhead, hbound, -⟩ := h
  obtain ⟨argument', head', hargument', hhead', hbound', -⟩ := hother
  obtain rfl := Option.some.inj (hargument.symm.trans hargument')
  have hheads := (Node.leftmostObject_eq_some_iff.mpr hhead).symm.trans (Node.leftmostObject_eq_some_iff.mpr hhead')
  obtain rfl := Option.some.inj hheads
  exact Option.some.inj ((get?_imports_iff.mpr hbound).symm.trans (get?_imports_iff.mpr hbound'))

/-- **Of every spread exactly one thing becomes.** -/
theorem existsUnique_treated (hkind : entry.kind = "spread_element") (levels : ℕ) :
    ∃! treatment, src.Treated levels entry treatment := by
  by_cases hentered : ∃ object, levels ≠ 0 ∧ src.SpreadsObject resolveLimit entry object
  · obtain ⟨object, hlevels, hspread⟩ := hentered
    refine ⟨.entered object, .entered hlevels hspread, fun other hother => ?_⟩
    cases hother with
    | entered _ hother => rw [hspread.eq hother]
    | recorded hnot => exact absurd hspread (hnot.not_entered hlevels)
    | ignored hnot => exact absurd hspread (hnot.not_entered hlevels)
  · have hnot : src.NotEntered levels entry := by
      refine ⟨hkind, ?_⟩
      by_cases hlevels : levels = 0
      · exact .inl hlevels
      · exact .inr fun object hspread => hentered ⟨object, hlevels, hspread⟩
    by_cases himport : ∃ module, src.SpreadsImport entry module
    · obtain ⟨module, himport⟩ := himport
      refine ⟨.recorded module, .recorded hnot himport, fun other hother => ?_⟩
      cases hother with
      | entered hlevels hspread => exact absurd hspread (hnot.not_entered hlevels)
      | recorded _ hother => rw [himport.eq hother]
      | ignored _ hnone => exact absurd himport (hnone module)
    · refine ⟨.ignored, .ignored hnot (not_exists.mp himport), fun other hother => ?_⟩
      cases hother with
      | entered hlevels hspread => exact absurd hspread (hnot.not_entered hlevels)
      | recorded _ hother => exact absurd ⟨_, hother⟩ himport
      | ignored => rfl

/-! ## The modules that are recorded -/

variable (src) in
/-- The modules that the spreads of some entries record, those of a literal that is entered in the place of its
spread. -/
inductive RecordedModules : ℕ → List Cursor → List String → Prop
  | nil {levels : ℕ} : RecordedModules levels [] []
  | other {levels : ℕ} {entry : Cursor} {rest : List Cursor} {modules : List String}
      (hkind : entry.kind ≠ "spread_element") (h : RecordedModules levels rest modules) :
      RecordedModules levels (entry :: rest) modules
  | entered {levels : ℕ} {entry object : Cursor} {rest : List Cursor} {inner modules : List String}
      (htreated : src.Treated (levels + 1) entry (.entered object))
      (hinner : RecordedModules levels object.namedChildren inner) (h : RecordedModules (levels + 1) rest modules) :
      RecordedModules (levels + 1) (entry :: rest) (inner ++ modules)
  | recorded {levels : ℕ} {entry : Cursor} {rest : List Cursor} {module : String} {modules : List String}
      (htreated : src.Treated levels entry (.recorded module)) (h : RecordedModules levels rest modules) :
      RecordedModules levels (entry :: rest) (module :: modules)
  | ignored {levels : ℕ} {entry : Cursor} {rest : List Cursor} {modules : List String}
      (htreated : src.Treated levels entry .ignored) (h : RecordedModules levels rest modules) :
      RecordedModules levels (entry :: rest) modules

theorem exists_recordedModules (levels : ℕ) (entries : List Cursor) :
    ∃ modules, src.RecordedModules levels entries modules := by
  induction levels using Nat.strong_induction_on generalizing entries with
  | _ levels ihlevels =>
    induction entries with
    | nil => exact ⟨[], .nil⟩
    | cons entry rest ih =>
      obtain ⟨modules, hmodules⟩ := ih
      by_cases hkind : entry.kind = "spread_element"
      · obtain ⟨treatment, htreated, -⟩ := existsUnique_treated hkind levels
        cases treatment with
        | entered object =>
          obtain ⟨below, rfl⟩ : ∃ below, levels = below + 1 := by
            cases htreated with
            | entered hlevels => exact Nat.exists_eq_succ_of_ne_zero hlevels
          obtain ⟨inner, hinner⟩ := ihlevels below (Nat.lt_succ_self below) object.namedChildren
          exact ⟨inner ++ modules, .entered htreated hinner hmodules⟩
        | recorded module => exact ⟨module :: modules, .recorded htreated hmodules⟩
        | ignored => exact ⟨modules, .ignored htreated hmodules⟩
      · exact ⟨modules, .other hkind hmodules⟩

theorem spreadModule?_eq_some_iff {argument : Cursor} (hargument : entry.parts.head? = some argument) :
    Handler.spreadModule? src src.imports (.spread argument) = some module ↔ src.SpreadsImport entry module := by
  constructor
  · intro h
    obtain ⟨head, hhead, h⟩ := Option.bind_eq_some_iff.mp h
    obtain ⟨found, hfound, h⟩ := Option.bind_eq_some_iff.mp h
    split_ifs at h with hempty
    cases h
    exact ⟨argument, head, hargument, Node.leftmostObject_eq_some_iff.mp hhead, get?_imports_iff.mp hfound, hempty⟩
  · rintro ⟨other, head, hother, hhead, hbound, hempty⟩
    obtain rfl := Option.some.inj (hother.symm.trans hargument)
    rw [Handler.spreadModule?, Node.leftmostObject_eq_some_iff.mpr hhead]
    change (Fields.get? src.imports (src.text head)).bind _ = _
    rw [get?_imports_iff.mpr hbound]
    exact if_neg hempty

theorem filterMap_entryMembers_other_kind {spread : Cursor → List Member} (hkind : entry.kind ≠ "spread_element") :
    (entryMembers spread entry).filterMap (Handler.spreadModule? src src.imports) = [] := by
  by_cases hpair : entry.kind = "pair"
  · rw [entryMembers_keyed _ hpair]
    rfl
  · rw [entryMembers_other _ hpair hkind]
    split_ifs <;> rfl

/-- The modules are those that the entries in the literal and in the literals in it give. -/
theorem RecordedModules.eq_filterMap {entries : List Cursor} {modules : List String}
    (h : src.RecordedModules levels entries modules) : modules =
      (entries.flatMap (entryMembers (src.spreadMembers levels))).filterMap (Handler.spreadModule? src src.imports) := by
  induction h with
  | nil => rfl
  | other hkind _ ih => rw [List.flatMap_cons, List.filterMap_append, filterMap_entryMembers_other_kind hkind, ← ih]; rfl
  | entered htreated _ _ ihinner ih =>
    cases htreated with
    | entered _ hspread =>
      rw [List.flatMap_cons, List.filterMap_append, entryMembers_object hspread, ← ih, ihinner]
      rfl
  | recorded htreated _ ih =>
    cases htreated with
    | recorded hentered himport =>
      obtain ⟨argument, head, hargument, -⟩ := id himport
      rw [List.flatMap_cons, entryMembers_argument hentered.1 hargument hentered.2, List.singleton_append,
        List.filterMap_cons, (spreadModule?_eq_some_iff hargument).mpr himport, ← ih]
  | @ignored levels entry rest modules htreated _ ih =>
    cases htreated with
    | ignored hentered himport =>
      cases hargument : entry.parts.head? with
      | none =>
        rw [List.flatMap_cons, entryMembers_spread _ hentered.1, hargument, ih]
        rfl
      | some argument =>
        have hnone : Handler.spreadModule? src src.imports (.spread argument) = none :=
          Option.eq_none_iff_forall_ne_some.mpr fun module hmodule =>
            himport module ((spreadModule?_eq_some_iff hargument).mp hmodule)
        rw [List.flatMap_cons, entryMembers_argument hentered.1 hargument hentered.2, List.singleton_append,
          List.filterMap_cons, hnone, ih]

end SourceFile

/-! ## The handler -/

namespace Documentation

theorem foldl_addComposed {doc : Documentation} (h : doc.composes = []) (modules : List String) :
    modules.foldl addComposed doc = { doc with composes := modules.eraseDups } := by
  induction modules using List.reverseRecOn with
  | nil =>
    obtain ⟨fields, props, composes⟩ := doc
    exact congrArg (Documentation.mk fields props) h
  | append_singleton modules module ih =>
    rw [List.foldl_concat, ih, eraseDups_concat, addComposed]
    simp only [List.contains_iff_mem, List.mem_eraseDups]
    split_ifs <;> rfl

end Documentation

namespace Handler

open SourceFile

variable {src : SourceFile} {definition : Definition} {object : Cursor}

/-- **Of every spread exactly one thing becomes, and the documentation has the modules that are recorded, each at its
first place.** -/
theorem composition_eq (hobject : propTypesObject? src definition = some object) :
    (∀ levels entry, entry.kind = "spread_element" → ∃! treatment, src.Treated levels entry treatment) ∧
      ∃ modules, src.RecordedModules spreadDepth object.namedChildren modules ∧
        (∀ other, src.RecordedModules spreadDepth object.namedChildren other → other = modules) ∧
        ∀ doc : Documentation, doc.composes = [] →
          composition src definition doc = .ok { doc with composes := modules.eraseDups } := by
  refine ⟨fun levels entry hkind => existsUnique_treated hkind levels, ?_⟩
  obtain ⟨modules, hmodules⟩ := src.exists_recordedModules spreadDepth object.namedChildren
  refine ⟨modules, hmodules, fun other hother => hother.eq_filterMap.trans hmodules.eq_filterMap.symm, fun doc hdoc => ?_⟩
  have hmembers : (propTypeMembers src definition).filterMap (spreadModule? src src.imports) = modules := by
    rw [propTypeMembers, hobject, hmodules.eq_filterMap]
    rfl
  rw [composition, always, hmembers, Documentation.foldl_addComposed hdoc]

/-! ## A module that is spread twice -/

/-- The tree of an import of one name. -/
def importTree : Node :=
  .mk "import_statement" true false "" 0 17
    [.leaf "import" false "" 0 6, .mk "import_clause" true false "" 7 8 [.leaf "identifier" true "" 7 8],
      .leaf "from" false "" 9 13, .mk "string" true false "source" 14 17 [.leaf "string_fragment" true "" 15 16]]

/-- The tree of the assignment of a literal that spreads a property of the name, and the name. -/
def spreadsTree : Node :=
  .mk "expression_statement" true false "" 18 46
    [.mk "assignment_expression" true false "" 18 46
      [.mk "member_expression" true false "left" 18 29
        [.leaf "identifier" true "object" 18 19, .leaf "." false "" 19 20,
          .leaf "property_identifier" true "property" 20 29],
        .leaf "=" false "" 30 31,
        .mk "object" true false "right" 32 46
          [.leaf "\x7b" false "" 32 33,
            .mk "spread_element" true false "" 33 39
              [.leaf "..." false "" 33 36,
                .mk "member_expression" true false "" 36 39
                  [.leaf "identifier" true "object" 36 37, .leaf "." false "" 37 38,
                    .leaf "property_identifier" true "property" 38 39]],
            .leaf "," false "" 39 40,
            .mk "spread_element" true false "" 41 45
              [.leaf "..." false "" 41 44, .leaf "identifier" true "" 44 45],
            .leaf "\x7d" false "" 45 46]]]

def importSource : SourceFile :=
  .ofTree none "import B from \"b\"\nW.propTypes = \x7b...B.x, ...B\x7d\n" .none
    (.mk "program" true false "" 0 47 [importTree, spreadsTree])

def importDefinition : Definition :=
  { kind := .byFunction, place := importSource.top, name := some "W", exported := false }

/-- The documentation has the module once. -/
theorem composition_importSource : ∃ object, propTypesObject? importSource importDefinition = some object ∧
    ∃ modules, importSource.RecordedModules spreadDepth object.namedChildren modules ∧ modules.eraseDups = ["b"] := by
  have hchecked : (propTypesObject? importSource importDefinition).isSome = true ∧
      (composition importSource importDefinition .empty).toOption.map (·.composes) = some ["b"] := by decide +kernel
  obtain ⟨object, hobject⟩ := Option.isSome_iff_exists.mp hchecked.1
  obtain ⟨-, modules, hmodules, -, hcomposition⟩ := composition_eq hobject
  refine ⟨object, hobject, modules, hmodules, ?_⟩
  have hcomposes := hchecked.2
  rw [hcomposition .empty rfl] at hcomposes
  exact Option.some.inj hcomposes

end Handler

end ComponentDocs

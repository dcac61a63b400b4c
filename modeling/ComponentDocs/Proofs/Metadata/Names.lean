import ComponentDocs.Proofs.Component.Definitions
import ComponentDocs.Proofs.Component.Name
import ComponentDocs.Proofs.Lists
import ComponentDocs.Proofs.Metadata.Normal

/-!
# The names of components

What the records of a file show as the names of its components.

* `withoutTrailingDigits_eq_nil_iff`: what is left of a name without its digits;
* `baseName_unknownPath_ne_empty`: a path that stands for a missing one has a name;
* `get?_displayName_of_mem_rawRecords`, `get?_displayName_of_normalizeComponent`: the name before and after a record is
  made normal;
* **`displayName_of_extract`**: every component shows a name, empty only if a file has one component and the name of
  that consists of digits.
-/

namespace ComponentDocs

/-! ## Digits -/

theorem withoutTrailingDigits_eq_nil_iff {cs : List Char} :
    withoutTrailingDigits cs = [] ↔ ∀ c ∈ cs, Text.isDigit c = true := by
  unfold withoutTrailingDigits
  split
  · rename_i rest hreverse
    have hmem : '\n' ∈ cs := List.mem_reverse.mp (hreverse ▸ List.mem_cons_self)
    have hfeed : Text.isDigit '\n' = false := by decide
    refine iff_of_false (List.append_ne_nil_of_right_ne_nil _ (List.cons_ne_nil _ _)) fun hall => ?_
    exact Bool.false_ne_true (hfeed.symm.trans (hall _ hmem))
  · rw [List.reverse_eq_nil_iff, List.dropWhile_eq_nil_iff]
    simp

/-! ## Paths -/

theorem baseName_ne_empty_of_digits {path : String} (front : List Char) (number : ℕ)
    (h : path.toList = front ++ Nat.toDigits 10 number) : Path.baseName path ≠ "" := by
  have hlast : ∀ c ∈ (Nat.toDigits 10 number).reverse, decide (c ≠ '/') = true := by
    intro c hc
    have hdigit : c.isDigit = true := isDigit_of_mem_toDigits (List.mem_reverse.mp hc)
    refine decide_eq_true fun heq => ?_
    rw [heq] at hdigit
    exact absurd hdigit (by decide)
  intro hempty
  rw [Path.baseName, String.ofList_eq_empty_iff, List.reverse_eq_nil_iff, h, List.reverse_append,
    List.takeWhile_append_of_pos hlast, List.append_eq_nil_iff, List.reverse_eq_nil_iff] at hempty
  exact Nat.toDigits_ne_nil hempty.1

theorem baseName_unknownPath_ne_empty (number : ℕ) : Path.baseName (unknownPath number) ≠ "" := by
  refine baseName_ne_empty_of_digits "/UnknownComponent".toList number ?_
  change ("/UnknownComponent" ++ toString number).toList = _
  rw [String.toList_append, Nat.toString_eq_repr, Nat.toList_repr]

/-! ## Records -/

section Records

variable {content : String} {tree : Node} {file : Record} {options : ExtractionOptions} {number : ℕ}

theorem resolver_of_chooseDefinitions {src : SourceFile} {resolver : Resolver} {definitions : List Definition}
    (h : (chooseDefinitions src resolver).result = .ok definitions) : resolver src = .ok definitions := by
  rw [result_chooseDefinitions] at h
  obtain ⟨-, -, h⟩ := bind_eq_ok_iff.mp h
  obtain ⟨found, hfound, h⟩ := bind_eq_ok_iff.mp h
  split at h
  · cases h
  · cases h
    exact hfound

theorem get?_displayName_of_run (hcallers : options.handlers = []) {path : String} {src : SourceFile}
    {definition : Definition} {doc : Documentation}
    (hrun : (Handler.run (handlersFor file path options) src definition).result = .ok doc) :
    Fields.get? doc.toRecord "displayName" = some (.str (Handler.nameOf path src definition)) := by
  rw [Handler.result_run, handlersFor, hcallers, List.foldlM_append] at hrun
  obtain ⟨before, -, hlast⟩ := bind_eq_ok_iff.mp hrun
  obtain rfl : before.set "displayName" (.str (Handler.nameOf path src definition)) = doc := Except.ok.inj hlast
  rw [Documentation.get?_toRecord _ (by decide) (by decide), Documentation.set, Fields.get?_set, if_pos rfl]
  rfl

/-- Without handlers of the caller a raw record has the name of a definition that was asked for. -/
theorem get?_displayName_of_mem_rawRecords (hcallers : options.handlers = []) {raws : List Record}
    (hraws : (rawRecords content tree file options number).result = .ok raws) {raw : Record} (hraw : raw ∈ raws) :
    ∃ src definitions, loadSource (Record.text? file "absolute_path") options.folder content options.parser tree =
        .ok src ∧ options.resolver src = .ok definitions ∧ ∃ definition ∈ definitions,
      Fields.get? raw "displayName" = some (.str (Handler.nameOf (identityPath file number) src definition)) := by
  rw [rawRecords, Outcome.result_bind] at hraws
  obtain ⟨src, hsrc, hrecords⟩ := bind_eq_ok_iff.mp hraws
  rw [result_componentRecords] at hrecords
  obtain ⟨definitions, hchosen, hdefinitions⟩ := bind_eq_ok_iff.mp hrecords
  obtain ⟨definition, hdefinition, hrecord⟩ := exists_of_mapM_ok hdefinitions hraw
  obtain ⟨doc, hrun, rfl⟩ := componentRecord_ok_iff.mp hrecord
  exact ⟨src, definitions, hsrc, resolver_of_chooseDefinitions hchosen, definition, hdefinition,
    get?_displayName_of_run hcallers hrun⟩

theorem get?_displayName_of_normalizeComponent {raw component : Record}
    (h : (normalizeComponent raw).result = .ok component) :
    Fields.get? component "displayName" = Fields.get? raw "displayName" := by
  obtain ⟨text, entries, props, -, -, -, rfl⟩ := normalizeComponent_ok_iff.mp h
  rw [Fields.get?_set, if_neg (by decide)]
  exact splitDescription_agreeBut raw text _ (by decide)

theorem dropNameDigits_of_get? {raw : Record} {name : String}
    (h : Fields.get? raw "displayName" = some (.str name)) (hname : name ≠ "") :
    dropNameDigits raw =
      .ok (Fields.set raw "displayName" (.str (String.ofList (withoutTrailingDigits name.toList)))) := by
  have hfilled : Record.filled? raw "displayName" = some (.str name) := by
    rw [Record.filled?, h]
    simp [Option.filter, Json.isEmptyValue, hname]
  rw [dropNameDigits, hfilled]

/-- **Every component of a file with a name shows the name of a definition, which is not empty.** The digits at the end
of that name are dropped if the component is the only one. So the shown name is empty only if there is one component
whose name consists of digits. -/
theorem displayName_of_extract (hcallers : options.handlers = [])
    (hstem : ∀ path, knownPath? file = some path → (Path.splitExtension (Path.baseName path)).1 ≠ "")
    {components : List Record} (hresult : (extract content tree file options number).result = .ok components) :
    ∀ component ∈ components, ∃ src definitions,
      loadSource (Record.text? file "absolute_path") options.folder content options.parser tree = .ok src ∧
      options.resolver src = .ok definitions ∧
      ∃ definition ∈ definitions, ∃ name shown, name = Handler.nameOf (identityPath file number) src definition ∧
        name ≠ "" ∧ Fields.get? component "displayName" = some (.str shown) ∧
        (components.length = 1 → shown = String.ofList (withoutTrailingDigits name.toList)) ∧
        (components.length ≠ 1 → shown = name) ∧
        (shown = "" ↔ components.length = 1 ∧ ∀ c ∈ name.toList, Text.isDigit c = true) := by
  have hpath : (Path.splitExtension (Path.baseName (identityPath file number))).1 ≠ "" := by
    unfold identityPath
    cases hknown : knownPath? file with
    | none => exact Path.splitExtension_ne_empty (baseName_unknownPath_ne_empty number)
    | some path => exact hstem path hknown
  cases hraws : (rawRecords content tree file options number).result with
  | error fault =>
    rw [extract_of_error hraws] at hresult
    rw [eq_nil_of_settleFault hresult]
    exact fun component hcomponent => absurd hcomponent List.not_mem_nil
  | ok raws =>
    rw [extract_of_ok hraws, normalizeAll, Outcome.result_mapM] at hresult
    have hlength : components.length = raws.length := (mapM_ok_iff.mp hresult).length_eq.symm
    intro component hcomponent
    obtain ⟨raw, hraw, hone⟩ := exists_of_mapM_ok hresult hcomponent
    obtain ⟨renamed, hrenamed, hnormal⟩ := normalizeOne_ok_iff.mp hone
    obtain ⟨src, definitions, hsrc, hdefinitions, definition, hdefinition, hget⟩ :=
      get?_displayName_of_mem_rawRecords hcallers hraws hraw
    have hname := Handler.nameOf_ne_empty hpath src definition
    refine ⟨src, definitions, hsrc, hdefinitions, definition, hdefinition, Handler.nameOf (identityPath file number)
      src definition, ?_⟩
    rw [get?_displayName_of_normalizeComponent hnormal, hlength]
    by_cases hone : raws.length = 1
    · rw [if_pos (beq_iff_eq.mpr hone), dropNameDigits_of_get? hget hname] at hrenamed
      refine ⟨_, rfl, hname, ?_, fun _ => rfl, fun hmore => absurd hone hmore, ?_⟩
      · rw [← Except.ok.inj hrenamed, Fields.get?_set, if_pos rfl]
      · rw [String.ofList_eq_empty_iff, withoutTrailingDigits_eq_nil_iff]
        exact (and_iff_right hone).symm
    · rw [if_neg (mt beq_iff_eq.mp hone)] at hrenamed
      refine ⟨_, rfl, hname, ?_, fun h => absurd h hone, fun _ => rfl, ?_⟩
      · rw [← Except.ok.inj hrenamed, hget]
      · exact iff_of_false hname fun h => hone h.1

end Records

theorem displayName_of_extract_wrappedSource : ∃ components,
    (extract "const A = memo(() => <i/>)\nexport default createClass({})\n" wrappedSource.root
      [("absolute_path", .str "a.js")] .none 1).result = .ok components ∧ components.length = 2 ∧
    ∀ component ∈ components, ∃ shown, Fields.get? component "displayName" = some (.str shown) ∧ shown ≠ "" := by
  have hlength : (extract "const A = memo(() => <i/>)\nexport default createClass({})\n" wrappedSource.root
      [("absolute_path", .str "a.js")] .none 1).result.toOption.map List.length = some 2 := by decide +kernel
  obtain ⟨components, hsome, htwo⟩ := Option.map_eq_some_iff.mp hlength
  have hresult := eq_ok_of_mem_toOption hsome
  have hstem : ∀ path, knownPath? [("absolute_path", .str "a.js")] = some path →
      (Path.splitExtension (Path.baseName path)).1 ≠ "" := by
    intro path hpath
    obtain rfl : "a.js" = path := Option.some.inj hpath
    decide +kernel
  refine ⟨components, hresult, htwo, fun component hcomponent => ?_⟩
  obtain ⟨src, definitions, -, -, definition, -, name, shown, -, -, hget, -, -, hempty⟩ :=
    displayName_of_extract rfl hstem hresult component hcomponent
  refine ⟨shown, hget, fun h => ?_⟩
  have hone := (hempty.mp h).1
  omega

end ComponentDocs

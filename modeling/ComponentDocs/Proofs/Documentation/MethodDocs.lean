import ComponentDocs.Proofs.Doclet.SignatureValue
import ComponentDocs.Proofs.Documentation.MethodFrame
import ComponentDocs.Proofs.Documentation.Sound

/-!
# Documented signatures

What a parameter and a returned value take from the one doclet of a docblock.

* `Param.DocumentedAs`, `Returns.DocumentedAs`: type and description are those that were written;
* `Method.getElem?_changeLast`: of the parameters of one name the last is changed;
* `Method.documentedAs_param_iff`, `Method.documentedAs_returns_iff`: when a doclet is taken as it was written;
* **`Handler.methodDocs_of_signatureDoclet`**: so it is for the methods of a component.
-/

namespace ComponentDocs

open Text

/-- The type and the description of the parameter are these texts. -/
structure Param.DocumentedAs (param : Param) (type description : List Char) : Prop where
  type_eq : param.type = some (.simple (String.ofList (trim type)))
  description_eq : Fields.get? (Param.noteFields param.notes) "description" = some (.str (String.ofList description))

/-- The type and the description of the returned value are these texts. -/
structure Returns.DocumentedAs (returns : Returns) (type description : List Char) : Prop where
  type_eq : Returns.type? returns = some (.simple (String.ofList (trim type)))
  description_eq : Fields.get? (Returns.noteFields returns) "description" = some (.str (String.ofList description))

namespace Method

variable {method : Method} {type name description : List Char} {docblock : String}

/-! ## Types without closing braces -/

/-- A type that is cut at a closing brace is not the type that was written. -/
theorem writtenType?_cut_ne (h : '\x7d' ∈ type) : writtenType? (some (type.takeWhile (· ≠ '\x7d'))) ≠
    some (.simple (String.ofList (trim type))) := by
  intro heq
  obtain ⟨cut, hcut, htype⟩ := Option.map_eq_some_iff.mp heq
  obtain rfl : type.takeWhile (· ≠ '\x7d') = cut := Option.some.inj (Option.filter_eq_some_iff.mp hcut).1
  have htrim : trim (type.takeWhile (· ≠ '\x7d')) = trim type :=
    String.ofList_injective (TypeDescriptor.simple.inj htype)
  have hmem : '\x7d' ∈ type.takeWhile (· ≠ '\x7d') := by
    apply (isInfix_trim _).subset
    rw [htrim]
    exact mem_trim h (by decide)
  exact absurd (List.mem_takeWhile_imp hmem) (by decide)

theorem writtenType?_of_ne_nil (h : type ≠ []) : writtenType? (some type) = some (.simple (String.ofList (trim type))) := by
  rw [writtenType?, Option.filter_some, if_pos (by simpa using h)]
  rfl

/-! ## Parameters -/

theorem getElem?_changeLast (name : String) (f : Param → Param) (params : List Param) (place : ℕ) :
    (changeLast name f params)[place]? = params[place]?.map fun param =>
      if param.name = name ∧ name ∉ (params.drop (place + 1)).map (·.name) then f param else param := by
  induction params generalizing place with
  | nil => rfl
  | cons param rest ih =>
    have hlater : (!rest.any (·.name == name)) = true ↔ name ∉ rest.map (·.name) := by simp
    rw [changeLast]
    simp only [hlater]
    split_ifs with h
    · cases place with
      | zero => exact congrArg some (if_pos h).symm
      | succ place =>
        have hrest : ∀ other ∈ rest[place]?, other.name ≠ name := fun other hother hname =>
          h.2 (hname ▸ List.mem_map_of_mem (f := (·.name)) (List.mem_of_getElem? hother))
        rw [List.getElem?_cons_succ, List.getElem?_cons_succ]
        cases hget : rest[place]? with
        | none => rfl
        | some other => exact congrArg some (if_neg fun hother => hrest other hget hother.1).symm
    · cases place with
      | zero => exact congrArg some (if_neg h).symm
      | succ place => exact ih place

theorem documentedAs_applyParamText {param : Param} {name : Option (List Char)} (htype : type ≠ [])
    (hdescription : description ≠ []) (htrim : trim description = description) (hnone : param.type = none) :
    (applyParamText { type := some type, name, description } false param).DocumentedAs type description := by
  have hwritten : param.type.or (writtenType? (some type)) = some (.simple (String.ofList (trim type))) := by
    rw [hnone, Option.none_or, writtenType?_of_ne_nil htype]
  rw [applyParamText, if_neg Bool.false_ne_true, if_neg (by simpa using hdescription)]
  refine ⟨hwritten, ?_⟩
  rw [Param.describe, Param.noteFields_putDescription, Fields.get?_set, if_pos rfl, trimmed, htrim]

theorem type_applyParamText (text : ParamText) (optional : Bool) (param : Param) :
    (applyParamText text optional param).type = param.type.or (writtenType? text.type) := by
  have hoptional : ∀ described : Param, (if optional then described.markOptional else described).type = described.type := by
    intro described
    rw [Param.markOptional]
    split_ifs <;> rfl
  rw [applyParamText, hoptional]
  split_ifs <;> rfl

/-- A parameter is changed if it is the last one of the name that is read. -/
theorem getElem?_applyParam {place : ℕ} {param : Param} (value : String) (h : method.params[place]? = some param) :
    (method.applyParam value).params[place]? =
      some (if (ParamText.parse value).name.map ParamText.target = some param.name ∧
          param.name ∉ (method.params.drop (place + 1)).map (·.name) then
        applyParamText (ParamText.parse value) ((ParamText.parse value).name.any ParamText.isOptional) param
      else param) := by
  rw [applyParam]
  cases (ParamText.parse value).name with
  | none => simpa using h
  | some written =>
    dsimp only
    rw [getElem?_changeLast, h]
    simp only [Option.map_some, Option.some.injEq, Option.any_some]
    by_cases hname : param.name = ParamText.target written
    · simp only [hname]
    · rw [if_neg fun hboth => hname hboth.1, if_neg fun hboth => hname hboth.1.symm]

/-- What is read of a name with another character is not the name. -/
theorem target_cut_ne (h : ¬ ∀ c ∈ name, isNameChar c = true) :
    ParamText.target (name.takeWhile isNameChar) ≠ String.ofList name := by
  rw [target_of_nameChars fun c hc => List.mem_takeWhile_imp hc]
  intro heq
  exact h (List.takeWhile_eq_self_iff.mp (String.ofList_injective heq))

/-- **A parameter takes what a `@param` says of it** just if there is no closing brace in the type, its name consists of
name characters, and no later parameter has this name. -/
theorem documentedAs_param_iff {place : ℕ} {param : Param} (htype : type ≠ []) (hdescription : description ≠ [])
    (htrim : trim description = description) (hname : IsPlainName name) (hparam : method.params[place]? = some param)
    (hparamName : param.name = String.ofList name) (hnone : param.type = none) :
    ∃ now, (method.applyParam (String.ofList (paramValue type name description))).params[place]? = some now ∧
      (now.DocumentedAs type description ↔ '\x7d' ∉ type ∧ (∀ c ∈ name, isNameChar c = true) ∧
        param.name ∉ (method.params.drop (place + 1)).map (·.name)) := by
  refine ⟨_, getElem?_applyParam _ hparam, ?_⟩
  have hundocumented : ¬ param.DocumentedAs type description := by
    rintro ⟨hdocumented, -⟩
    rw [hnone] at hdocumented
    cases hdocumented
  by_cases hbrace : '\x7d' ∈ type
  · -- whichever parameter the rest of the text names, the type that it takes is cut
    refine iff_of_false ?_ fun h => h.1 hbrace
    split_ifs
    · rintro ⟨hdocumented, -⟩
      rw [type_applyParamText, hnone, Option.none_or, ParamText.type_parse_paramValue] at hdocumented
      exact writtenType?_cut_ne hbrace hdocumented
    · exact hundocumented
  by_cases hchars : ∀ c ∈ name, isNameChar c = true
  · rw [ParamText.parse_paramValue hbrace hname hchars htrim]
    dsimp only
    rw [Option.map_some, target_of_nameChars hchars, Option.any_some, isOptional_of_plain hname, hparamName]
    by_cases hlater : String.ofList name ∉ (method.params.drop (place + 1)).map (·.name)
    · rw [if_pos ⟨rfl, hlater⟩]
      exact iff_of_true (documentedAs_applyParamText htype hdescription htrim hnone) ⟨hbrace, hchars, hlater⟩
    · rw [if_neg fun h => hlater h.2]
      exact iff_of_false hundocumented fun h => hlater h.2.2
  · -- the name that is read is cut, so the doclet is about another parameter or none
    refine iff_of_false ?_ fun h => hchars h.2.1
    rw [if_neg]
    · exact hundocumented
    · rintro ⟨hread, -⟩
      rw [ParamText.name_parse_paramValue hbrace hname, hparamName] at hread
      split_ifs at hread
      · cases hread
      · exact target_cut_ne hchars (Option.some.inj hread)

/-! ## Returned values -/

/-- **A returned value takes what a `@returns` says of it** just if there is no closing brace in the type. -/
theorem documentedAs_returns_iff (htype : type ≠ []) (hdescription : description ≠ [])
    (htrim : trim description = description) (hnone : Returns.type? method.returns = none) :
    (method.applyReturns (String.ofList (returnsValue type description))).returns.DocumentedAs type description ↔
      '\x7d' ∉ type := by
  by_cases hbrace : '\x7d' ∈ type
  · refine iff_of_false ?_ (not_not_intro hbrace)
    rintro ⟨hdocumented, -⟩
    rw [type?_applyReturns, hnone, Option.none_or, ReturnsText.type_parse_returnsValue] at hdocumented
    exact writtenType?_cut_ne hbrace hdocumented
  · refine iff_of_true ⟨?_, ?_⟩ hbrace
    · rw [type?_applyReturns, hnone, Option.none_or, ReturnsText.parse_returnsValue hbrace htrim, writtenType?_of_ne_nil htype]
    · rw [applyReturns, ReturnsText.parse_returnsValue hbrace htrim]
      dsimp only
      rw [if_neg (by simpa using hdescription), Returns.noteFields_describe, Fields.get?_set, if_pos rfl, trimmed, htrim]

/-! ## Docblocks with one doclet -/

theorem document_of_parse {doclet : Doclet} (hdocblock : method.docblock = some docblock)
    (hparse : Doclet.parse docblock = [doclet]) :
    method.document = { method with description := nonEmpty? (Doclet.clean docblock) }.applyDoclet doclet := by
  have hne : docblock ≠ "" := by
    rintro rfl
    exact absurd (hparse.symm.trans (by decide +kernel : Doclet.parse "" = [])) (List.cons_ne_nil _ _)
  rw [document_eq hdocblock hne, hparse]
  rfl

end Method

/-! ## The handler -/

namespace Handler

/-- **Of a docblock with one `@param` or `@returns` that is written with a type in braces and a description, a parameter
or a returned value without a type takes both just if there is no closing brace in the type**, and for a parameter if its
name consists of name characters and is not the name of a later one. A docblock has one doclet if it has one tag line that
nothing goes on. -/
theorem methodDocs_of_signatureDoclet {doc : Documentation} {index : ℕ} {method : Method} {docblock : String}
    {type description : List Char} (src : SourceFile) (definition : Definition) (hmethod : doc.methods[index]? = some method)
    (hdocblock : method.docblock = some docblock) (htype : type ≠ []) (hdescription : description ≠ [])
    (htrim : trim description = description) :
    ∃ after documented, methodDocs src definition doc = .ok after ∧ after.methods[index]? = some documented ∧
      (∀ tag value, Doclet.HoldsOnly docblock tag value →
        Doclet.parse docblock = [⟨String.ofList tag, String.ofList value⟩]) ∧
      (∀ name place param, Doclet.parse docblock = [⟨"param", String.ofList (paramValue type name description)⟩] →
        IsPlainName name → method.params[place]? = some param → param.name = String.ofList name → param.type = none →
          ∃ now, documented.params[place]? = some now ∧ (now.DocumentedAs type description ↔
            '\x7d' ∉ type ∧ (∀ c ∈ name, isNameChar c = true) ∧
              param.name ∉ (method.params.drop (place + 1)).map (·.name))) ∧
      (Doclet.parse docblock = [⟨"returns", String.ofList (returnsValue type description)⟩] →
        Returns.type? method.returns = none →
          (Returns.DocumentedAs documented.returns type description ↔ '\x7d' ∉ type)) := by
  refine ⟨doc.changeMethods Method.document, method.document, rfl, ?_, fun tag value => Doclet.parse_of_holdsOnly,
    fun name place param hparse hname hparam hparamName hnone => ?_, fun hparse hnone => ?_⟩
  · rw [Documentation.methods_changeMethods, List.getElem?_map, hmethod]
    rfl
  · rw [Method.document_of_parse hdocblock hparse, Method.applyDoclet, if_pos rfl]
    exact Method.documentedAs_param_iff htype hdescription htrim hname hparam hparamName hnone
  · rw [Method.document_of_parse hdocblock hparse, Method.applyDoclet, if_neg (show ¬ "returns" = "param" by decide),
      if_pos (.inl rfl)]
    exact Method.documentedAs_returns_iff htype hdescription htrim hnone

/-- A source without any text. -/
def blankSource : SourceFile := .ofTree none "" .none (.mk "program" true false "" 0 0 [])

def blankDefinition : Definition := { kind := .byClass, place := blankSource.top, name := none, exported := false }

/-- A method with a parameter `x` that says nothing of its type. -/
def describedMethod (docblock : String) : Method :=
  { name := "m", docblock := some docblock, modifiers := [], params := [{ name := "x", type := none, notes := [] }],
    returns := [], description := none }

/-- Two methods whose docblocks give types with and without braces. -/
def describedMethods : Documentation :=
  Documentation.empty.setMethods
    [describedMethod "Moves.\n@param \x7b\x7ba: string\x7d\x7d x - braces",
      describedMethod "@param \x7b ?Map<N> \x7d x - plain\n\nSee below."]

/-- The type with braces is lost, the other one is found. -/
theorem methodDocs_describedMethods : ∃ after braced plain,
    methodDocs blankSource blankDefinition describedMethods = .ok after ∧
    after.methods[0]? = some braced ∧ after.methods[1]? = some plain ∧
    (∃ now, braced.params[0]? = some now ∧ ¬ now.DocumentedAs "\x7ba: string\x7d".toList "braces".toList) ∧
    ∃ now, plain.params[0]? = some now ∧ now.DocumentedAs " ?Map<N> ".toList "plain".toList := by
  have hname : IsPlainName ['x'] := ⟨by decide, List.forall_mem_singleton.mpr (by decide)⟩
  have hchars : ∀ c ∈ ['x'], isNameChar c = true := List.forall_mem_singleton.mpr (by decide)
  have hfirst : describedMethods.methods[0]? =
      some (describedMethod "Moves.\n@param \x7b\x7ba: string\x7d\x7d x - braces") := rfl
  have hsecond : describedMethods.methods[1]? =
      some (describedMethod "@param \x7b ?Map<N> \x7d x - plain\n\nSee below.") := rfl
  obtain ⟨after, braced, hafter, hbraced, -, hfirstParam, -⟩ := methodDocs_of_signatureDoclet blankSource blankDefinition
    hfirst rfl (show "\x7ba: string\x7d".toList ≠ [] by decide) (show "braces".toList ≠ [] by decide) (by decide)
  obtain ⟨after', plain, hafter', hplain, -, hsecondParam, -⟩ := methodDocs_of_signatureDoclet blankSource blankDefinition
    hsecond rfl (show " ?Map<N> ".toList ≠ [] by decide) (show "plain".toList ≠ [] by decide) (by decide)
  obtain rfl := Except.ok.inj (hafter.symm.trans hafter')
  obtain ⟨first, hnow, hbracedIff⟩ := hfirstParam _ 0 _ (by decide +kernel) hname rfl rfl rfl
  obtain ⟨second, hnow', hplainIff⟩ := hsecondParam _ 0 _ (by decide +kernel) hname rfl rfl rfl
  exact ⟨after, braced, plain, hafter, hbraced, hplain, ⟨first, hnow, fun h => (hbracedIff.mp h).1 (by decide)⟩,
    second, hnow', hplainIff.mpr ⟨by decide, hchars, by decide⟩⟩

end Handler

end ComponentDocs

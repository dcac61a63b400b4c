import ComponentDocs.Doclet.Signature
import ComponentDocs.Proofs.Doclet.Written

/-!
# Written signature doclets

What is read of a value that was written with a type in braces, a name and a description.

* `paramValue`, `returnsValue`: the values of `@param` and `@returns` as they are written;
* `exists_bracedType`, `bracedType_of_notMem`: a type ends at the first closing brace;
* `paramName_of_plain`: a name ends at the first character that is no name character;
* **`ParamText.parse_paramValue`**, **`ReturnsText.parse_returnsValue`**: without closing braces all parts come back;
* `Doclet.HoldsOnly`, **`Doclet.parse_of_holdsOnly`**: a docblock with one tag line holds its doclet.
-/

namespace ComponentDocs

open Text

/-- The value of a `@param` doclet with a type, a name and a description. -/
def paramValue (type name description : List Char) : List Char :=
  '\x7b' :: (type ++ '\x7d' :: ' ' :: (name ++ ' ' :: '-' :: ' ' :: description))

/-- The value of a `@returns` doclet with a type and a description. -/
def returnsValue (type description : List Char) : List Char := '\x7b' :: (type ++ '\x7d' :: ' ' :: description)

/-- A name as every identifier is one: it has no blanks and no opening brackets. -/
structure IsPlainName (name : List Char) : Prop where
  ne_nil : name ≠ []
  plain : ∀ c ∈ name, isBlank c = false ∧ c ≠ '['

variable {type name description : List Char}

theorem trimStart_of_trim (h : trim description = description) : trimStart description = description := by
  rw [← h, trim, trimStart_trimEnd, trimStart_trimStart]

theorem mem_trim {c : Char} {cs : List Char} (hc : c ∈ cs) (hblank : isBlank c = false) : c ∈ trim cs := by
  obtain ⟨before, after, hbefore, hafter, hcs⟩ := exists_eq_append_trim cs
  have hnot : ∀ ws, isBlankLine ws = true → c ∉ ws := by
    intro ws hws hmem
    rw [isBlankLine_iff.mp hws c hmem] at hblank
    exact absurd hblank (by decide)
  rw [hcs, List.mem_append, List.mem_append] at hc
  exact (hc.resolve_right (hnot after hafter)).resolve_left (hnot before hbefore)

/-! ## Types -/

theorem exists_bracedType (type rest : List Char) : ∃ after, bracedType ('\x7b' :: (type ++ '\x7d' :: rest)) =
    (some (type.takeWhile (· ≠ '\x7d')), after) := by
  rw [bracedType, takeWhile_append_of_stop (by decide)]
  cases hdrop : (type ++ '\x7d' :: rest).dropWhile (· ≠ '\x7d') with
  | nil => exact absurd (List.dropWhile_eq_nil_iff.mp hdrop '\x7d' (by simp)) (by decide)
  | cons brace after => exact ⟨trimStart after, rfl⟩

theorem bracedType_of_notMem (h : '\x7d' ∉ type) (rest : List Char) :
    bracedType ('\x7b' :: (type ++ '\x7d' :: rest)) = (some type, trimStart rest) := by
  have hplain : ∀ c ∈ type, decide (c ≠ '\x7d') = true := fun c hc => decide_eq_true fun heq => h (heq ▸ hc)
  rw [bracedType, List.takeWhile_append_of_pos hplain, List.dropWhile_append_of_pos hplain,
    List.takeWhile_cons_of_neg (by decide), List.dropWhile_cons_of_neg (by decide), List.append_nil]

/-! ## Names -/

theorem isNameChar_space : isNameChar ' ' = false := by decide

theorem paramName_of_plain (h : IsPlainName name) (rest : List Char) : paramName (name ++ ' ' :: rest) =
    if name.takeWhile isNameChar = [] then (none, name ++ ' ' :: rest)
    else (some (name.takeWhile isNameChar), (name ++ ' ' :: rest).dropWhile isNameChar) := by
  obtain ⟨first, name, rfl⟩ := List.exists_cons_of_ne_nil h.ne_nil
  have hfirst : first ≠ '[' := (h.plain first List.mem_cons_self).2
  rw [paramName]
  · rw [takeWhile_append_of_stop isNameChar_space]
    split
    · next heq => exact (if_pos heq).symm
    · next hne => exact (if_neg hne).symm
  · exact fun _ heq => hfirst (List.cons.inj heq).1

theorem paramName_of_nameChars (h : IsPlainName name) (hname : ∀ c ∈ name, isNameChar c = true) (rest : List Char) :
    paramName (name ++ ' ' :: rest) = (some name, ' ' :: rest) := by
  rw [paramName_of_plain h, List.takeWhile_eq_self_iff.mpr hname, if_neg h.ne_nil,
    List.dropWhile_append_of_pos hname, List.dropWhile_cons_of_neg (by decide)]

theorem isBracket_of_isNameChar {c : Char} (h : isNameChar c = true) : ParamText.isBracket c = false := by
  rw [← Bool.not_eq_true, ParamText.isBracket, Bool.or_eq_true, beq_iff_eq, beq_iff_eq]
  rintro (rfl | rfl) <;> exact absurd h (by decide)

theorem target_of_nameChars (h : ∀ c ∈ name, isNameChar c = true) : ParamText.target name = String.ofList name := by
  have hbracket : ∀ cs : List Char, (∀ c ∈ cs, isNameChar c = true) → cs.dropWhile ParamText.isBracket = cs := by
    intro cs hcs
    cases cs with
    | nil => rfl
    | cons c cs =>
      exact List.dropWhile_cons_of_neg (by rw [isBracket_of_isNameChar (hcs c List.mem_cons_self)]; decide)
  have hdefault : name.takeWhile (· ≠ '=') = name := by
    refine List.takeWhile_eq_self_iff.mpr fun c hc => decide_eq_true ?_
    rintro rfl
    exact absurd (h _ hc) (by decide)
  rw [ParamText.target, hbracket name h, hbracket _ fun c hc => h c (List.mem_reverse.mp hc), List.reverse_reverse, hdefault]

theorem isOptional_of_plain (h : IsPlainName name) : ParamText.isOptional name = false := by
  obtain ⟨first, name, rfl⟩ := List.exists_cons_of_ne_nil h.ne_nil
  simpa [ParamText.isOptional] using (h.plain first List.mem_cons_self).2

theorem skipDash_dash (h : trim description = description) : skipDash (' ' :: '-' :: ' ' :: description) = description := by
  have hdash : trimStart (' ' :: '-' :: ' ' :: description) = '-' :: ' ' :: description := by
    rw [trimStart_cons, if_pos (by decide), trimStart_cons, if_neg (by decide)]
  rw [skipDash, hdash]
  change trimStart (' ' :: description) = description
  rw [trimStart_cons, if_pos (by decide), trimStart_of_trim h]

/-! ## Values -/

/-- Whatever is in the braces, the type that is read has no closing brace. -/
theorem ParamText.type_parse_paramValue (type name description : List Char) :
    (parse (String.ofList (paramValue type name description))).type = some (type.takeWhile (· ≠ '\x7d')) := by
  obtain ⟨after, hafter⟩ := exists_bracedType type (' ' :: (name ++ ' ' :: '-' :: ' ' :: description))
  rw [parse, String.toList_ofList, paramValue, hafter]

theorem ReturnsText.type_parse_returnsValue (type description : List Char) :
    (parse (String.ofList (returnsValue type description))).type = some (type.takeWhile (· ≠ '\x7d')) := by
  obtain ⟨after, hafter⟩ := exists_bracedType type (' ' :: description)
  rw [parse, String.toList_ofList, returnsValue, hafter]

theorem bracedType_paramValue (h : '\x7d' ∉ type) (hname : IsPlainName name) (description : List Char) :
    bracedType (paramValue type name description) = (some type, name ++ ' ' :: '-' :: ' ' :: description) := by
  obtain ⟨first, name, rfl⟩ := List.exists_cons_of_ne_nil hname.ne_nil
  have hfirst : ¬ isBlank first = true := by
    rw [(hname.plain first List.mem_cons_self).1]
    decide
  rw [paramValue, bracedType_of_notMem h, trimStart_cons, if_pos (by decide), List.cons_append, trimStart_cons,
    if_neg hfirst]

/-- The name that is read is as much of the name as consists of name characters. -/
theorem ParamText.name_parse_paramValue (h : '\x7d' ∉ type) (hname : IsPlainName name) (description : List Char) :
    (parse (String.ofList (paramValue type name description))).name =
      if name.takeWhile isNameChar = [] then none else some (name.takeWhile isNameChar) := by
  rw [parse, String.toList_ofList, bracedType_paramValue h hname]
  dsimp only
  rw [paramName_of_plain hname]
  split_ifs <;> rfl

/-- **All parts of a `@param` value come back** if there is no closing brace in the type and the name consists of name
characters. -/
theorem ParamText.parse_paramValue (h : '\x7d' ∉ type) (hname : IsPlainName name)
    (hchars : ∀ c ∈ name, isNameChar c = true) (hdescription : trim description = description) :
    parse (String.ofList (paramValue type name description)) =
      { type := some type, name := some name, description := description } := by
  rw [parse, String.toList_ofList, bracedType_paramValue h hname]
  dsimp only
  rw [paramName_of_nameChars hname hchars, skipDash_dash hdescription]

/-- **Both parts of a `@returns` value come back** if there is no closing brace in the type. -/
theorem ReturnsText.parse_returnsValue (h : '\x7d' ∉ type) (hdescription : trim description = description) :
    parse (String.ofList (returnsValue type description)) = { type := some type, description := description } := by
  rw [parse, String.toList_ofList, returnsValue, bracedType_of_notMem h, trimStart_cons, if_pos (by decide),
    trimStart_of_trim hdescription]

/-! ## Docblocks -/

namespace Doclet

/-- The docblock has one tag line, with this tag and this value, and the line after it is blank if there is one. -/
def HoldsOnly (docblock : String) (tag value : List Char) : Prop :=
  ∃ front line back rest, splitLines docblock.toList = front ++ line :: back ∧ TagLine line tag rest ∧ trim rest = value ∧
    (∀ other ∈ front ++ back, isTagLine other = false) ∧ ∀ next, back.head? = some next → isBlankLine next = true

/-- **A docblock with one tag line holds its doclet.** -/
theorem parse_of_holdsOnly {docblock : String} {tag value : List Char} (h : HoldsOnly docblock tag value) :
    parse docblock = [⟨String.ofList tag, String.ofList value⟩] := by
  obtain ⟨front, line, back, rest, hlines, hline, rfl, hothers, hnext⟩ := h
  obtain ⟨hfront, hback⟩ := List.forall_mem_append.mp hothers
  have hstop : back.takeWhile goesOn = [] := by
    cases back with
    | nil => rfl
    | cons next back => exact List.takeWhile_cons_of_neg (by rw [goesOn, hnext next rfl, Bool.not_true, Bool.false_and]; decide)
  rw [parse_eq_docletsOf, hlines, docletsOf_append_of_not_tag hfront, docletsOf_cons, docletAt_cons_zero,
    tagLine?_of_tagLine hline, hstop, docletsOf_eq_nil_iff.mpr hback]
  simp only [Option.map_some, List.map_nil, spaced_singleton]
  rfl

end Doclet

end ComponentDocs

import ComponentDocs.Proofs.Metadata.Outcome
import ComponentDocs.Proofs.Metadata.Syntax

/-!
# Where a source cannot be read

The line and the column of the first error of a source lead back to the bytes at which it starts.

* `Text.textBefore`: the text in front of a line and a column;
* `Text.exists_last_row`: the rows in front of a place, and the start of its own row;
* `Text.textBefore_of_rows`: line and column count rows and characters;
* `SourceFile.HasError.exists_first`: the first error, with what is visited before it;
* **`textBefore_of_firstError`**: the text in front of the reported place has as many bytes as stand in front of the error.
-/

namespace ComponentDocs

namespace Text

variable {cs before front after : List Char}

/-! ## Places in a text -/

/-- The rows above a line with their line feeds, and the characters of the row in front of a column. -/
def textBefore (cs : List Char) (line column : ℕ) : List Char :=
  ((splitAt '\n' cs).take (line - 1)).flatMap (· ++ ['\n']) ++
    (((splitAt '\n' cs)[line - 1]?).getD []).take (column - 1)

/-- A text ends with the start of a row, behind the rows in front of it. -/
theorem exists_last_row (cs : List Char) :
    ∃ before front, cs = before ++ front ∧ '\n' ∉ front ∧ (before = [] ∨ before.getLast? = some '\n') := by
  induction cs using List.reverseRecOn with
  | nil => exact ⟨[], [], rfl, List.not_mem_nil, .inl rfl⟩
  | append_singleton cs c ih =>
    by_cases hc : c = '\n'
    · exact ⟨cs ++ [c], [], (List.append_nil _).symm, List.not_mem_nil, .inr (by rw [List.getLast?_concat, hc])⟩
    · obtain ⟨before, front, rfl, hfront, hbefore⟩ := ih
      refine ⟨before, front ++ [c], List.append_assoc .., fun hmem => ?_, hbefore⟩
      rcases List.mem_append.mp hmem with hmem | hmem
      · exact hfront hmem
      · exact hc (List.mem_singleton.mp hmem).symm

theorem flatMap_splitAt (cs : List Char) : (splitAt '\n' cs).flatMap (· ++ ['\n']) = cs ++ ['\n'] := by
  induction hlength : cs.length using Nat.strong_induction_on generalizing cs with
  | _ n ih =>
    rcases splitAt_cases '\n' cs with ⟨-, hsplit⟩ | ⟨first, rest, -, rfl, hsplit⟩
    · rw [hsplit, List.flatMap_singleton]
    · rw [List.length_append, List.length_cons] at hlength
      rw [hsplit, List.flatMap_cons, ih rest.length (by omega) rest rfl]
      simp

theorem flatMap_take_splitAt (hbefore : before = [] ∨ before.getLast? = some '\n') (after : List Char) :
    ((splitAt '\n' (before ++ after)).take (before.count '\n')).flatMap (· ++ ['\n']) = before := by
  rcases hbefore with rfl | hlast
  · rfl
  · obtain ⟨init, rfl⟩ := List.getLast?_eq_some_iff.mp hlast
    have hcount : (init ++ ['\n']).count '\n' = (splitAt '\n' init).length := by
      rw [length_splitAt, List.count_append, List.count_singleton_self]
    rw [hcount, List.append_assoc, List.singleton_append, splitAt_append_cons, List.take_left, flatMap_splitAt]

/-- **The line and the column of a place lead back to the text in front of it.** -/
theorem textBefore_of_rows (hfront : '\n' ∉ front) (hbefore : before = [] ∨ before.getLast? = some '\n') :
    textBefore (before ++ front ++ after) (before.count '\n' + 1) (front.length + 1) = before ++ front := by
  obtain ⟨rest, hrow⟩ : ∃ rest, (splitAt '\n' (before ++ front ++ after))[before.count '\n']? = some (front ++ rest) :=
    getElem?_splitAt_count hfront hbefore
  rw [textBefore, Nat.add_sub_cancel, Nat.add_sub_cancel, hrow, Option.getD_some, List.take_left, List.append_assoc,
    flatMap_take_splitAt hbefore]

end Text

open Text

/-! ## The first error -/

/-- A source with an error has a first one; nothing that is visited before it is an error. -/
theorem SourceFile.HasError.exists_first {src : SourceFile} (h : src.HasError) : ∃ visited c later,
    src.top.walk = visited ++ c :: later ∧ (∀ d ∈ visited, d.node.isError = false) ∧ c.node.isError = true := by
  obtain ⟨d, hd, herror⟩ := h
  obtain ⟨c, hc⟩ := Option.isSome_iff_exists.mp ((List.find?_isSome (p := (·.node.isError))).mpr ⟨d, hd, herror⟩)
  obtain ⟨hfirst, visited, later, hwalk, hvisited⟩ := List.find?_eq_some_iff_append.mp hc
  exact ⟨visited, c, later, hwalk, fun d hd => by simpa using hvisited d hd, hfirst⟩

theorem SourceFile.firstError?_of_walk {src : SourceFile} {visited later : List Cursor} {c : Cursor}
    (hwalk : src.top.walk = visited ++ c :: later) (hvisited : ∀ d ∈ visited, d.node.isError = false)
    (herror : c.node.isError = true) : src.firstError? = some c := by
  rw [SourceFile.firstError?, List.find?_eq_some_iff_append]
  exact ⟨herror, visited, later, hwalk, fun d hd => by rw [hvisited d hd]; rfl⟩

theorem SourceFile.hasError_of_firstError? {src : SourceFile} {c : Cursor} (hc : src.firstError? = some c) :
    src.HasError := by
  obtain ⟨herror, visited, later, hwalk, -⟩ := List.find?_eq_some_iff_append.mp hc
  exact ⟨c, by rw [hwalk]; simp, herror⟩

theorem componentRecords_of_firstError {src : SourceFile} {c : Cursor} (hc : src.firstError? = some c)
    (resolver : Resolver) (handlers : List Handler) :
    (componentRecords src resolver handlers).result = .error (.rejected (src.rejection c.node)) := by
  have hcheck : src.check = .error (.rejected (src.rejection c.node)) := by rw [SourceFile.check, hc]
  rw [result_componentRecords, result_chooseDefinitions, hcheck]
  rfl

/-- **The place of a syntax error leads back to the error.** A source with an error has a first one in source order,
and is rejected with a line and a column. If the error starts between two characters, the rows above this line with
their line feeds and the characters in front of this column are the text in front of the error: they have as many bytes
as the offset of the error says, whatever characters they are. -/
theorem textBefore_of_firstError {filename folder : Option String} {content : String} {options : ParserOptions}
    {tree : Node} {src : SourceFile} (hsrc : loadSource filename folder content options tree = .ok src)
    (herrors : src.HasError) (resolver : Resolver) (handlers : List Handler) :
    ∃ visited c later rejection, ∃ line column : ℕ,
      src.top.walk = visited ++ c :: later ∧ (∀ d ∈ visited, d.node.isError = false) ∧ c.node.isError = true ∧
      (componentRecords src resolver handlers).result = .error (.rejected rejection) ∧ rejection.kind = .unreadable ∧
      rejection.position = some ⟨line, column⟩ ∧
      ∀ before after, content.toList = before ++ after → (encode before).length = c.node.start →
        (∃ row, (splitAt '\n' content.toList)[line - 1]? = some row ∧ column - 1 ≤ row.length) ∧
        1 ≤ line ∧ 1 ≤ column ∧ textBefore content.toList line column = before ∧
        (encode (textBefore content.toList line column)).length = c.node.start := by
  obtain ⟨visited, c, later, hwalk, hvisited, herror⟩ := herrors.exists_first
  have hresult := componentRecords_of_firstError (SourceFile.firstError?_of_walk hwalk hvisited herror) resolver handlers
  refine ⟨visited, c, later, _, src.row c.node.start + 1,
    (src.characters (src.lineStart c.node.start) c.node.start).length + 1, hwalk, hvisited, herror, hresult, rfl, rfl,
    fun text after hcontent hstart => ?_⟩
  obtain ⟨before, front, rfl, hfront, hbefore⟩ := exists_last_row text
  have hholds := holds_of_loadSource hsrc
  rw [hcontent] at hholds
  obtain ⟨hrow, hcharacters⟩ := hholds.row_and_characters hfront hbefore
  rw [hstart] at hrow hcharacters
  have htext : textBefore (before ++ front ++ after) (before.count '\n' + 1) (front.length + 1) = before ++ front :=
    textBefore_of_rows hfront hbefore
  obtain ⟨rest, hrest⟩ : ∃ rest, (splitAt '\n' (before ++ front ++ after))[before.count '\n']? = some (front ++ rest) :=
    getElem?_splitAt_count hfront hbefore
  rw [hcontent, hrow, hcharacters, htext, Nat.add_sub_cancel, Nat.add_sub_cancel]
  exact ⟨⟨front ++ rest, hrest, by rw [List.length_append]; omega⟩, by omega, by omega, rfl, hstart⟩

/-- A comment and a statement with wide characters in front of a statement without a name. -/
def wideRows : String := "// 日本\nconst s = '🎉'; const = 1\n"

/-- The tree of `wideRows`, with an error at the second statement. -/
def wideRowsTree : Node :=
  let string : Node := .mk "string" true false "value" 20 26
    [.leaf "'" false "" 20 21, .leaf "string_fragment" true "" 21 25, .leaf "'" false "" 25 26]
  .mk "program" true false "" 0 38
    [.leaf "comment" true "" 0 9,
      .mk "lexical_declaration" true false "" 10 27
        [.leaf "const" false "kind" 10 15,
          .mk "variable_declarator" true false "" 16 26
            [.leaf "identifier" true "name" 16 17, .leaf "=" false "" 18 19, string],
          .leaf ";" false "" 26 27],
      .mk "ERROR" true false "" 28 35 [.leaf "const" false "" 28 33, .leaf "=" false "" 34 35],
      .mk "expression_statement" true false "" 36 37 [.leaf "number" true "" 36 37]]

/-- Wide characters above the error and in front of it do not move its place. -/
theorem textBefore_wideRows : ∃ src rejection, ∃ line column : ℕ,
    loadSource none none wideRows .none wideRowsTree = .ok src ∧ src.HasError ∧
    (componentRecords src .all []).result = .error (.rejected rejection) ∧
    rejection.position = some ⟨line, column⟩ ∧
    textBefore wideRows.toList line column = "// 日本\nconst s = '🎉'; ".toList ∧
    (encode (textBefore wideRows.toList line column)).length = 28 := by
  have hload : loadSource none none wideRows .none wideRowsTree = .ok (.ofTree none wideRows .none wideRowsTree) := by
    have hgrammar : loadSource none none wideRows .none wideRowsTree =
        if grammarNames.contains (Language.select none wideRows .none).grammar then
          .ok (.ofTree none wideRows .none wideRowsTree)
        else .error (.unknownGrammar (Language.select none wideRows .none).grammar) := rfl
    rw [hgrammar, if_pos (by decide +kernel)]
  have hfirst : (SourceFile.ofTree none wideRows .none wideRowsTree).firstError?.map (·.node.start) = some 28 := by
    decide +kernel
  have herrors : (SourceFile.ofTree none wideRows .none wideRowsTree).HasError := by
    obtain ⟨c, hc, -⟩ := Option.map_eq_some_iff.mp hfirst
    exact SourceFile.hasError_of_firstError? hc
  obtain ⟨visited, c, later, rejection, line, column, hwalk, hvisited, herror, hresult, -, hposition, hplace⟩ :=
    textBefore_of_firstError hload herrors .all []
  rw [SourceFile.firstError?_of_walk hwalk hvisited herror] at hfirst
  have hstart : c.node.start = 28 := Option.some.inj hfirst
  obtain ⟨-, -, -, htext, hlength⟩ :=
    hplace "// 日本\nconst s = '🎉'; ".toList "const = 1\n".toList (by decide +kernel) (by rw [hstart]; decide +kernel)
  exact ⟨_, rejection, line, column, hload, herrors, hresult, hposition, htext, hlength.trans hstart⟩

end ComponentDocs

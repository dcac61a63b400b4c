import ComponentDocs.Proofs.Metadata.Raw
import ComponentDocs.Proofs.Source.Place
import ComponentDocs.Proofs.Text.Excerpt
import ComponentDocs.Proofs.Text.Rows
import ComponentDocs.Proofs.Tree.Walk

/-!
# What is shown of a source that cannot be read

* `extract_of_firstError`: a source with an error is rejected with the lines around it;
* `marks_of_plain`: the marked line is the row of the error where rows and lines are the same;
* **`extract_marks_error`**: which line is marked, what it shows, and what the pointer points to.
-/

namespace ComponentDocs

open Text

theorem holds_of_loadSource {filename folder : Option String} {content : String} {options : ParserOptions} {tree : Node}
    {src : SourceFile} (h : loadSource filename folder content options tree = .ok src) : src.Holds content.toList := by
  unfold loadSource at h
  dsimp only at h
  split_ifs at h
  rw [← Except.ok.inj h]
  rfl

variable {content : String} {tree : Node} {file : Record} {options : ExtractionOptions} {number : ℕ} {src : SourceFile}
  {c : Cursor}

theorem extract_of_firstError
    (hsrc : loadSource (Record.text? file "absolute_path") options.folder content options.parser tree = .ok src)
    (hc : src.firstError? = some c) : (extract content tree file options number).result =
      .error (.rejected (addExcerpt content (src.rejection c.node))) := by
  have hcheck : src.check = .error (.rejected (src.rejection c.node)) := by rw [SourceFile.check, hc]
  rw [result_extract, result_rawRecords hsrc, result_componentRecords, result_chooseDefinitions, hcheck]
  rfl

/-- Where the rows up to a place are plain, the line of the place is its row, or the row is empty and behind the last
line. -/
theorem marks_of_plain {frame row line cs : List Char} {i column : ℕ} (hrow : (splitAt '\n' cs)[i]? = some row)
    (hline : (splitLines cs)[min i ((splitLines cs).length - 1)]? = some line)
    (hmarks : Marks frame (min (i + 1) (splitLines cs).length) line column)
    (hplain : ∀ r ∈ (splitAt '\n' cs).take (i + 1), IsPlainRow r) :
    i < (splitLines cs).length ∧ Marks frame (i + 1) row column ∨
      row = [] ∧ i = (splitLines cs).length ∧ (splitLines cs).getLast? = some line ∧ Marks frame i line column := by
  rcases getElem?_splitLines hrow hplain with hfound | ⟨hlength, hempty⟩
  · left
    obtain ⟨hi, -⟩ := List.getElem?_eq_some_iff.mp hfound
    have hplace : min i ((splitLines cs).length - 1) = i := by omega
    have hnumber : min (i + 1) (splitLines cs).length = i + 1 := by omega
    rw [hplace, hfound] at hline
    rw [hnumber] at hmarks
    cases hline
    exact ⟨hi, hmarks.congr fun head => trimEnd_append_rowText head row⟩
  · right
    have hplace : min i ((splitLines cs).length - 1) = (splitLines cs).length - 1 := by omega
    have hnumber : min (i + 1) (splitLines cs).length = i := by omega
    rw [hplace] at hline
    rw [hnumber] at hmarks
    exact ⟨hempty, hlength.symm, by rw [List.getLast?_eq_getElem?, hline], hmarks⟩

/-- **The lines around an error have one marked line and a pointer below it.** The marked line is the one whose number
is that of the row of the error, or the last one. If up to there only line feeds and carriage returns in front of them
end lines, it shows the row of the error, or the last line if this row is empty behind it. The pointer stands under the
character in front of which the error starts. -/
theorem extract_marks_error
    (hsrc : loadSource (Record.text? file "absolute_path") options.folder content options.parser tree = .ok src)
    (hc : src.firstError? = some c) (hcontent : content ≠ "") : ∃ rejection frame row line column,
    (extract content tree file options number).result = .error (.rejected rejection) ∧
    rejection.kind = .unreadable ∧ rejection.position = some ⟨src.row c.node.start + 1, (column : ℕ)⟩ ∧
    rejection.excerpt = some frame ∧
    (splitAt '\n' content.toList)[src.row c.node.start]? = some row ∧
    (splitLines content.toList)[min (src.row c.node.start) ((splitLines content.toList).length - 1)]? = some line ∧
    Marks frame.toList (min (src.row c.node.start + 1) (splitLines content.toList).length) line column ∧
    ((∀ r ∈ (splitAt '\n' content.toList).take (src.row c.node.start + 1), IsPlainRow r) →
      src.row c.node.start < (splitLines content.toList).length ∧
        Marks frame.toList (src.row c.node.start + 1) row column ∨
      row = [] ∧ src.row c.node.start = (splitLines content.toList).length ∧
        (splitLines content.toList).getLast? = some line ∧ Marks frame.toList (src.row c.node.start) line column) ∧
    ∀ before front after, content.toList = before ++ front ++ after → '\n' ∉ front →
      (before = [] ∨ before.getLast? = some '\n') → (encode (before ++ front)).length = c.node.start →
      src.row c.node.start = before.count '\n' ∧ column = front.length + 1 ∧ front <+: row := by
  have hholds := holds_of_loadSource hsrc
  obtain ⟨row, hrow⟩ : ∃ row, (splitAt '\n' content.toList)[src.row c.node.start]? = some row :=
    ⟨_, List.getElem?_eq_getElem (hholds.row_lt c.node.start)⟩
  have hlines : 0 < (splitLines content.toList).length := by
    rw [List.length_pos_iff, Ne, splitLines_eq_nil_iff, String.toList_eq_nil_iff]
    exact hcontent
  obtain ⟨line, hline⟩ :
      ∃ line, (splitLines content.toList)[min (src.row c.node.start) ((splitLines content.toList).length - 1)]? =
        some line := ⟨_, List.getElem?_eq_getElem (by omega)⟩
  have hmarks := marks_excerpt (src.row c.node.start)
    (src.characters (src.lineStart c.node.start) c.node.start).length hline
  refine ⟨_, _, row, line, (src.characters (src.lineStart c.node.start) c.node.start).length + 1,
    extract_of_firstError hsrc hc, rfl, rfl, rfl, hrow, hline, hmarks,
    marks_of_plain hrow hline hmarks, fun before front after htext hfront hbefore hstart => ?_⟩
  rw [htext] at hholds
  have hposition := hholds.position_of_text hfront hbefore
  rw [hstart] at hposition
  have hline' : ((src.row c.node.start : Int) + 1) = before.count '\n' + 1 := congrArg Position.line hposition
  have hcolumn : ((src.characters (src.lineStart c.node.start) c.node.start).length + 1 : Int) = front.length + 1 :=
    congrArg Position.column hposition
  have hcount : src.row c.node.start = before.count '\n' := by omega
  refine ⟨hcount, by omega, ?_⟩
  obtain ⟨rest, hrest⟩ := getElem?_splitAt_count hfront hbefore
  rw [htext, hcount, hrest] at hrow
  exact ⟨rest, Option.some.inj hrow⟩

/-- A form feed ends a line but no row: the error starts at the second name, and the marked line ends before it. -/
example : Text.excerpt "a\x0cb = ;\n" (some ⟨1, 3⟩) .standard = "> 1 | a\n    |   ^\n  2 | b = ;" := by
  decide +kernel

/-- A statement behind a string with characters of three and four bytes. -/
def wideContent : String := "const s = '日本🎉'; const = 1\n"

/-- The tree of `wideContent`, with an error at the second statement. -/
def wideTree : Node :=
  let string : Node := .mk "string" true false "value" 10 22
    [.leaf "'" false "" 10 11, .leaf "string_fragment" true "" 11 21, .leaf "'" false "" 21 22]
  .mk "program" true false "" 0 34
    [.mk "lexical_declaration" true false "" 0 23
        [.leaf "const" false "kind" 0 5,
          .mk "variable_declarator" true false "" 6 22 [.leaf "identifier" true "name" 6 7, .leaf "=" false "" 8 9, string],
          .leaf ";" false "" 22 23],
      .mk "ERROR" true false "" 24 31 [.leaf "const" false "" 24 29, .leaf "=" false "" 30 31],
      .mk "expression_statement" true false "" 32 33 [.leaf "number" true "" 32 33]]

/-- The pointer stands under the character in front of which the error starts, whatever the bytes before it. -/
theorem extract_marks_wideContent : ∃ src c rejection frame,
    loadSource (Record.text? [] "absolute_path") none wideContent .none wideTree = .ok src ∧
    src.firstError? = some c ∧ wideContent ≠ "" ∧
    (extract wideContent wideTree [] .none 1).result = .error (.rejected rejection) ∧
    rejection.position = some ⟨1, 18⟩ ∧ rejection.excerpt = some frame ∧
    Marks frame.toList 1 "const s = '日本🎉'; const = 1".toList 18 := by
  have hload : loadSource (Record.text? [] "absolute_path") none wideContent .none wideTree =
      .ok (.ofTree none wideContent .none wideTree) := by
    have hgrammar : loadSource (Record.text? [] "absolute_path") none wideContent .none wideTree =
        if grammarNames.contains (Language.select none wideContent .none).grammar then
          .ok (.ofTree none wideContent .none wideTree)
        else .error (.unknownGrammar (Language.select none wideContent .none).grammar) := rfl
    rw [hgrammar, if_pos (by decide +kernel)]
  obtain ⟨c, hc, hstart⟩ : ∃ c ∈ (SourceFile.ofTree none wideContent .none wideTree).firstError?, c.node.start = 24 := by
    decide +kernel
  have hne : wideContent ≠ "" := by decide
  obtain ⟨rejection, frame, row, line, column, hresult, -, hposition, hexcerpt, hrow, -, -, hplain, hplace⟩ :=
    @extract_marks_error _ _ [] .none 1 _ _ hload hc hne
  obtain ⟨hzero, rfl, -⟩ := hplace [] "const s = '日本🎉'; ".toList "const = 1\n".toList (by decide +kernel) (by decide +kernel)
    (.inl rfl) (by rw [hstart]; decide +kernel)
  rw [List.count_nil] at hzero
  rw [hzero] at hposition hrow hplain
  have hwide : (splitAt '\n' wideContent.toList)[0]? = some "const s = '日本🎉'; const = 1".toList := by decide +kernel
  obtain rfl : "const s = '日本🎉'; const = 1".toList = row := Option.some.inj (hwide.symm.trans hrow)
  have hrows : ∀ r ∈ (splitAt '\n' wideContent.toList).take 1, IsPlainRow r := by
    have hall : ((splitAt '\n' wideContent.toList).take 1).all (fun r => (rowText r).all (!isLineBreak ·)) = true := by
      decide +kernel
    intro r hr c hc
    simpa using List.all_eq_true.mp (List.all_eq_true.mp hall r hr) c hc
  refine ⟨_, c, rejection, frame, hload, hc, hne, hresult, hposition, hexcerpt, ?_⟩
  rcases hplain hrows with ⟨-, hmarks⟩ | ⟨hempty, -⟩
  · exact hmarks
  · exact absurd hempty (by decide +kernel)

end ComponentDocs

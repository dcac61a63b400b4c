import ComponentDocs.Proofs.Json.Written
import ComponentDocs.Proofs.Text.Hex
import ComponentDocs.Proofs.Text.Lines

/-!
# Texts that are read back

The two forms in which values are written are styles, so both are read back.

* **`Json.read_indentedText`**: reading the text of a file returns the value that was written;
* **`Json.read_compactText`**: reading a line returns the value that was written, `Json.compact_injective`: values with
  the same line are equal;
* `Json.withLineFeeds_indentedText`: the text of a file has line feeds only.
-/

namespace ComponentDocs.Json

/-! ## The two forms -/

theorem isSpace_of_mem_newline (depth : Nat) : ∀ c ∈ newline depth, isSpace c = true := by
  simp [newline, isSpace]

/-- One item or field a line. -/
def indentedStyle : Style where
  ascii := false
  first := newline
  next := newline
  last := newline
  isSpace_first := isSpace_of_mem_newline
  isSpace_next := isSpace_of_mem_newline
  isSpace_last := isSpace_of_mem_newline

/-- All on one line, with a space after every comma. -/
def compactStyle : Style where
  ascii := true
  first _ := []
  next _ := [' ']
  last _ := []
  isSpace_first _ := by simp
  isSpace_next _ := by simp [isSpace]
  isSpace_last _ := by simp

mutual

theorem indented_eq_written (depth : Nat) (v : Json) : indented depth v = written indentedStyle depth v := by
  cases v with
  | null => rw [indented, written]
  | bool b => cases b <;> rw [indented, written]
  | int n => rw [indented, written]
  | decimal d => rw [indented, written]
  | str s =>
    rw [indented, written]
    rfl
  | arr items =>
    cases items with
    | nil => rw [indented, written]
    | cons item items =>
      rw [indented, written, indented_eq_written, indentedItems_eq_written]
      rfl
  | obj fields =>
    rcases fields with _ | ⟨⟨name, value⟩, fields⟩
    · rw [indented, written]
    · rw [indented, written, indented_eq_written, indentedFields_eq_written]
      rfl

theorem indentedItems_eq_written (depth : Nat) (items : List Json) :
    indentedItems depth items = writtenItems indentedStyle depth items := by
  cases items with
  | nil => rw [indentedItems, writtenItems]
  | cons item items =>
    rw [indentedItems, writtenItems, indented_eq_written, indentedItems_eq_written depth items]
    rfl

theorem indentedFields_eq_written (depth : Nat) (fields : List (String × Json)) :
    indentedFields depth fields = writtenFields indentedStyle depth fields := by
  rcases fields with _ | ⟨⟨name, value⟩, fields⟩
  · rw [indentedFields, writtenFields]
  · rw [indentedFields, writtenFields, indented_eq_written, indentedFields_eq_written depth fields]
    rfl

end

mutual

theorem compact_eq_written (depth : Nat) (v : Json) : compact v = written compactStyle depth v := by
  cases v with
  | null => rw [compact, written]
  | bool b => cases b <;> rw [compact, written]
  | int n => rw [compact, written]
  | decimal d => rw [compact, written]
  | str s =>
    rw [compact, written]
    rfl
  | arr items =>
    cases items with
    | nil => rw [compact, written]
    | cons item items =>
      rw [compact, written, compact_eq_written (depth + 1) item, compactItems_eq_written (depth + 1) items]
      exact congrArg (· ++ [']']) (List.append_nil _).symm
  | obj fields =>
    rcases fields with _ | ⟨⟨name, value⟩, fields⟩
    · rw [compact, written]
    · rw [compact, written, compact_eq_written (depth + 1) value, compactFields_eq_written (depth + 1) fields]
      exact congrArg (· ++ ['\x7d']) (List.append_nil _).symm

theorem compactItems_eq_written (depth : Nat) (items : List Json) :
    compactItems items = writtenItems compactStyle depth items := by
  cases items with
  | nil => rw [compactItems, writtenItems]
  | cons item items =>
    rw [compactItems, writtenItems, compact_eq_written depth item, compactItems_eq_written depth items]
    rfl

theorem compactFields_eq_written (depth : Nat) (fields : List (String × Json)) :
    compactFields fields = writtenFields compactStyle depth fields := by
  rcases fields with _ | ⟨⟨name, value⟩, fields⟩
  · rw [compactFields, writtenFields]
  · rw [compactFields, writtenFields, compact_eq_written depth value, compactFields_eq_written depth fields]
    rfl

end

/-- **Reading the text of a sound value returns the value.** -/
theorem read_indentedText {v : Json} (hv : v.Sound) : read (indentedText v) = .ok v := by
  rw [indentedText, indented_eq_written]
  exact read_written indentedStyle hv

/-- **Reading the line of a sound value returns the value.** -/
theorem read_compactText {v : Json} (hv : v.Sound) : read (compactText v) = .ok v := by
  rw [compactText, compact_eq_written 0]
  exact read_written compactStyle hv

/-- **Sound values with the same line are equal.** -/
theorem compact_injective {v w : Json} (hv : v.Sound) (hw : w.Sound) (h : compact v = compact w) : v = w := by
  have hread : read (compactText v) = read (compactText w) := by rw [compactText, compactText, h]
  rw [read_compactText hv, read_compactText hw] at hread
  exact Except.ok.inj hread

/-! ## Line ends -/

theorem return_notMem_escapeChar (c : Char) : '\r' ∉ escapeChar false c := by
  have hdigits : ∀ width n, '\r' ∉ Text.hexDigits width n := fun width n h =>
    Text.forall_mem_hexDigits (P := (· ≠ '\r')) (by decide) width n '\r' h rfl
  unfold escapeChar escapeCode escapeUnit
  split_ifs with hmark hfeed hreturn htab hback hform hcontrol hunit
  all_goals try simp [hdigits]
  · rintro rfl
    exact absurd hmark (by decide)
  · rintro rfl
    exact absurd hreturn (by decide)

theorem return_notMem_stringText (s : String) : '\r' ∉ stringText false s := by
  intro h
  simp only [stringText, List.cons_append, List.mem_cons, List.mem_append, List.mem_flatMap, List.not_mem_nil,
    or_false] at h
  rcases h with h | ⟨c, -, h⟩ | h
  · exact absurd h (by decide)
  · exact return_notMem_escapeChar c h
  · exact absurd h (by decide)

theorem return_notMem_newline (depth : Nat) : '\r' ∉ newline depth := by simp [newline]

theorem return_notMem_integerText (n : Int) : '\r' ∉ integerText n := by
  have hnat : ∀ m : Nat, '\r' ∉ Nat.toDigits 10 m := notMem_toDigits (by decide)
  cases n with
  | ofNat m => exact hnat m
  | negSucc m =>
    intro h
    rcases List.mem_cons.mp h with h | h
    · exact absurd h (by decide)
    · exact hnat (m + 1) h

theorem return_notMem_decimal (d : Decimal) : '\r' ∉ d.text := by
  have hdigits : '\r' ∉ padDigits (d.places + 1) (Nat.toDigits 10 d.digits.natAbs) :=
    fun h => absurd (isDigit_of_mem_padDigits h) (by decide)
  intro h
  simp only [Decimal.text, List.mem_append] at h
  rcases h with ((h | h) | h) | h
  · split_ifs at h <;> simp at h
  · exact hdigits (List.mem_of_mem_take h)
  · simp at h
  · exact hdigits (List.mem_of_mem_drop h)

mutual

theorem return_notMem_indented (depth : Nat) (v : Json) : '\r' ∉ indented depth v := by
  cases v with
  | null => simp [indented]
  | bool b => cases b <;> simp [indented]
  | int n => exact return_notMem_integerText n
  | decimal d => exact return_notMem_decimal d
  | str s => exact return_notMem_stringText s
  | arr items =>
    cases items with
    | nil => simp [indented]
    | cons item rest =>
      simp [indented, return_notMem_newline, return_notMem_indented (depth + 1) item,
        return_notMem_indentedItems (depth + 1) rest]
  | obj fields =>
    rcases fields with _ | ⟨⟨name, value⟩, rest⟩
    · simp [indented]
    · simp [indented, return_notMem_newline, return_notMem_stringText, return_notMem_indented (depth + 1) value,
        return_notMem_indentedFields (depth + 1) rest]

theorem return_notMem_indentedItems (depth : Nat) (items : List Json) : '\r' ∉ indentedItems depth items := by
  cases items with
  | nil => simp [indentedItems]
  | cons item rest =>
    simp [indentedItems, return_notMem_newline, return_notMem_indented depth item,
      return_notMem_indentedItems depth rest]

theorem return_notMem_indentedFields (depth : Nat) (fields : List (String × Json)) :
    '\r' ∉ indentedFields depth fields := by
  rcases fields with _ | ⟨⟨name, value⟩, rest⟩
  · simp [indentedFields]
  · simp [indentedFields, return_notMem_newline, return_notMem_stringText, return_notMem_indented depth value,
      return_notMem_indentedFields depth rest]

end

/-- Reading a text file does not change the line ends of a written value. -/
theorem withLineFeeds_indentedText (v : Json) :
    Text.withLineFeeds (indentedText v).toList = (indentedText v).toList := by
  rw [indentedText, String.toList_ofList]
  exact Text.withLineFeeds_of_notMem (return_notMem_indented 0 v)

end ComponentDocs.Json

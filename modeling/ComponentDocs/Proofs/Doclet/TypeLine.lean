import ComponentDocs.Proofs.Doclet.TypeValue
import ComponentDocs.Proofs.Doclet.Written

/-!
# Listed types

A `@type` line of a description may list the members of a type between parentheses in braces. The members come back as
they were written, as an enum if all of them are literals.

* `Literal`: quoted texts, decimal numbers, truth values and null; `isLiteral_iff`: these are recognized;
* `ListMember`, `Padded`: the members that a list can hold, and a member among blanks;
* `members_join`: members among blanks with bars between them are found again;
* `typeLine`: the line that lists members; `docletsOf_typeLine`: its doclet among those of a description;
* **`type_of_typeLine`**: the type that a prop takes from such a line.
-/

namespace ComponentDocs

open Text

variable {cs : List Char}

/-! ## Literals -/

/-- A text between two quotes of one kind. -/
def QuotedText (cs : List Char) : Prop := ∃ mark ∈ ['"', '\'', '\x60'], ∃ inner, cs = mark :: (inner ++ [mark])

/-- Digits of any script, at least one. -/
def Digits (cs : List Char) : Prop := cs ≠ [] ∧ ∀ c ∈ cs, isDigit c = true

/-- Digits, and possibly a point and digits after it. -/
def UnsignedNumber (cs : List Char) : Prop := ∃ whole places, cs = whole ++ places ∧ Digits whole ∧
  (places = [] ∨ ∃ digits, Digits digits ∧ places = '.' :: digits)

/-- A decimal number, possibly with a minus sign. -/
def DecimalNumber (cs : List Char) : Prop := UnsignedNumber cs ∨ ∃ unsigned, UnsignedNumber unsigned ∧ cs = '-' :: unsigned

/-- A quoted text, a decimal number, a truth value or null. -/
def Literal (cs : List Char) : Prop :=
  QuotedText cs ∨ DecimalNumber cs ∨ cs ∈ ["true".toList, "false".toList, "null".toList]

theorem isQuoted_iff (h : '\n' ∉ cs) : isQuoted cs = true ↔ QuotedText cs := by
  cases cs with
  | nil => simp [isQuoted, QuotedText]
  | cons mark rest =>
    rw [isQuoted, Bool.and_eq_true, Bool.and_eq_true, beq_iff_eq, QuotedText]
    constructor
    · rintro ⟨⟨hmark, hlast⟩, -⟩
      obtain ⟨inner, rfl⟩ := List.getLast?_eq_some_iff.mp hlast
      exact ⟨mark, by simpa [or_assoc] using hmark, inner, rfl⟩
    · rintro ⟨other, hother, inner, heq⟩
      obtain ⟨rfl, rfl⟩ := List.cons.inj heq
      have hinner : '\n' ∉ inner := fun hmem => h (List.mem_cons_of_mem _ (List.mem_append_left _ hmem))
      refine ⟨⟨by simpa [or_assoc] using hother, List.getLast?_concat⟩, ?_⟩
      rw [List.dropLast_concat, Bool.not_eq_true', ← Bool.not_eq_true, List.contains_iff_mem]
      exact hinner

theorem isDigits_iff : isDigits cs = true ↔ Digits cs := by
  rw [isDigits, Bool.and_eq_true, Bool.not_eq_true', List.isEmpty_eq_false_iff, List.all_eq_true, Digits]

/-- The text is read as a number without a sign. -/
def isUnsigned (cs : List Char) : Bool :=
  match splitAt '.' cs with
  | [whole] => isDigits whole
  | [whole, places] => isDigits whole && isDigits places
  | _ => false

theorem Digits.point_notMem (h : Digits cs) : '.' ∉ cs := by
  intro hmem
  exact absurd (h.2 '.' hmem) (by decide)

theorem isUnsigned_iff : isUnsigned cs = true ↔ UnsignedNumber cs := by
  constructor
  · intro h
    rw [isUnsigned] at h
    rcases splitAt_cases '.' cs with ⟨-, hsplit⟩ | ⟨whole, rest, -, rfl, hsplit⟩
    · rw [hsplit] at h
      exact ⟨cs, [], (List.append_nil cs).symm, isDigits_iff.mp h, .inl rfl⟩
    · rcases splitAt_cases '.' rest with ⟨-, hrest⟩ | ⟨places, more, -, -, hrest⟩
      · rw [hsplit, hrest] at h
        obtain ⟨hwhole, hplaces⟩ := Bool.and_eq_true_iff.mp h
        exact ⟨whole, '.' :: rest, rfl, isDigits_iff.mp hwhole, .inr ⟨rest, isDigits_iff.mp hplaces, rfl⟩⟩
      · obtain ⟨third, others, hmore⟩ := List.exists_cons_of_ne_nil (splitAt_ne_nil '.' more)
        rw [hsplit, hrest, hmore] at h
        exact absurd h (by simp)
  · rintro ⟨whole, places, rfl, hwhole, rfl | ⟨digits, hdigits, rfl⟩⟩
    · rw [List.append_nil, isUnsigned, splitAt_of_notMem hwhole.point_notMem]
      exact isDigits_iff.mpr hwhole
    · rw [isUnsigned, splitAt_append_cons, splitAt_of_notMem hwhole.point_notMem, splitAt_of_notMem hdigits.point_notMem]
      exact Bool.and_eq_true_iff.mpr ⟨isDigits_iff.mpr hwhole, isDigits_iff.mpr hdigits⟩

theorem not_unsignedNumber_of_minus (cs : List Char) : ¬ UnsignedNumber ('-' :: cs) := by
  rintro ⟨whole, places, heq, ⟨hne, hdigits⟩, -⟩
  obtain ⟨first, rest, rfl⟩ := List.exists_cons_of_ne_nil hne
  rw [List.cons_append, List.cons.injEq] at heq
  have := hdigits first List.mem_cons_self
  rw [← heq.1] at this
  exact absurd this (by decide)

theorem isNumber_iff : isNumber cs = true ↔ DecimalNumber cs := by
  by_cases hsign : ∃ unsigned, cs = '-' :: unsigned
  · obtain ⟨unsigned, rfl⟩ := hsign
    change isUnsigned unsigned = true ↔ _
    rw [isUnsigned_iff, DecimalNumber, or_iff_right (not_unsignedNumber_of_minus unsigned)]
    simp
  · have hnumber : isNumber cs = isUnsigned cs := by
      unfold isNumber
      split
      · next unsigned => exact absurd ⟨unsigned, rfl⟩ hsign
      · rfl
    rw [hnumber, isUnsigned_iff, DecimalNumber, or_iff_left]
    rintro ⟨unsigned, -, rfl⟩
    exact hsign ⟨unsigned, rfl⟩

/-- **Literals are recognized** on one line. -/
theorem isLiteral_iff (h : '\n' ∉ cs) : isLiteral cs = true ↔ Literal cs := by
  simp only [isLiteral, Bool.or_eq_true, isQuoted_iff h, isNumber_iff, beq_iff_eq, Literal, List.mem_cons,
    List.not_mem_nil, or_false, or_assoc]

/-! ## Members -/

/-- A member that a list can hold: a trimmed text on one line without bars and brackets. -/
structure ListMember (member : List Char) : Prop where
  ne_nil : member ≠ []
  trimmed : trim member = member
  plain : ∀ c ∈ member, c ≠ '|' ∧ isBracket c = false ∧ isLineBreak c = false

theorem listMember_iff {member : List Char} : ListMember member ↔ member ≠ [] ∧ trim member = member ∧
    member.all (fun c => decide (c ≠ '|') && !isBracket c && !isLineBreak c) = true := by
  simp only [List.all_eq_true, Bool.and_eq_true, decide_eq_true_iff, Bool.not_eq_true', and_assoc]
  exact ⟨fun h => ⟨h.ne_nil, h.trimmed, h.plain⟩, fun ⟨hne, htrim, hplain⟩ => ⟨hne, htrim, hplain⟩⟩

instance : DecidablePred ListMember := fun _ => decidable_of_iff _ listMember_iff.symm

/-- Blank space on a line. -/
def IsSpace (cs : List Char) : Prop := isBlankLine cs = true ∧ ∀ c ∈ cs, isLineBreak c = false

/-- The piece is the member among blanks. -/
def Padded (member piece : List Char) : Prop :=
  ∃ before after, IsSpace before ∧ IsSpace after ∧ piece = before ++ member ++ after

section

variable {member piece : List Char} {listed pieces : List (List Char)}

theorem ListMember.line_feed_notMem (h : ListMember member) : '\n' ∉ member := fun hmem =>
  absurd (h.plain _ hmem).2.2 (by decide)

theorem Padded.trim_eq (h : Padded member piece) (hmember : ListMember member) : trim piece = member := by
  obtain ⟨before, after, hbefore, hafter, rfl⟩ := h
  rw [trim_append_of_blank hbefore.1 hafter.1, hmember.trimmed]

theorem Padded.plain (h : Padded member piece) (hmember : ListMember member) :
    ∀ c ∈ piece, c ≠ '|' ∧ isBracket c = false ∧ isLineBreak c = false := by
  have hspace : ∀ ws, IsSpace ws → ∀ c ∈ ws, c ≠ '|' ∧ isBracket c = false ∧ isLineBreak c = false := by
    intro ws hws c hc
    have hblank := isBlankLine_iff.mp hws.1 c hc
    refine ⟨?_, not_isBracket_of_isBlank hblank, hws.2 c hc⟩
    rintro rfl
    exact absurd hblank (by decide)
  obtain ⟨before, after, hbefore, hafter, rfl⟩ := h
  rw [List.forall_mem_append, List.forall_mem_append]
  exact ⟨⟨hspace before hbefore, hmember.plain⟩, hspace after hafter⟩

theorem plain_of_mem_pieces (hpieces : List.Forall₂ Padded listed pieces)
    (hlisted : ∀ member ∈ listed, ListMember member) :
    ∀ piece ∈ pieces, ∀ c ∈ piece, c ≠ '|' ∧ isBracket c = false ∧ isLineBreak c = false := by
  induction hpieces with
  | nil => simp
  | cons hpiece _ ih =>
    rw [List.forall_mem_cons] at hlisted ⊢
    exact ⟨hpiece.plain hlisted.1, ih hlisted.2⟩

theorem map_trim_pieces (hpieces : List.Forall₂ Padded listed pieces) (hlisted : ∀ member ∈ listed, ListMember member) :
    pieces.map trim = listed := by
  induction hpieces with
  | nil => rfl
  | cons hpiece _ ih =>
    rw [List.forall_mem_cons] at hlisted
    rw [List.map_cons, hpiece.trim_eq hlisted.1, ih hlisted.2]

/-- **Members among blanks with bars between them are found again.** -/
theorem members_join (hne : listed ≠ []) (hpieces : List.Forall₂ Padded listed pieces)
    (hlisted : ∀ member ∈ listed, ListMember member) : WrittenType.members (join ['|'] pieces) = listed := by
  have hpieces_ne : pieces ≠ [] := by
    rintro rfl
    exact hne (List.forall₂_nil_right_iff.mp hpieces)
  have hbars : ∀ piece ∈ pieces, '|' ∉ piece := fun piece hpiece hmem =>
    (plain_of_mem_pieces hpieces hlisted piece hpiece _ hmem).1 rfl
  rw [WrittenType.members, splitAt_join hpieces_ne hbars, map_trim_pieces hpieces hlisted, List.filter_eq_self]
  intro member hmember
  simpa using (hlisted member hmember).ne_nil

end

namespace Doclet

/-! ## The line -/

/-- The value that lists members between parentheses in braces. -/
def listValue (pieces : List (List Char)) : List Char := '\x7b' :: (('(' :: (join ['|'] pieces ++ [')'])) ++ ['\x7d'])

/-- The `@type` line that lists members. -/
def typeLine (pieces : List (List Char)) : List Char := "@type ".toList ++ listValue pieces

section

variable {listed pieces : List (List Char)}

theorem trim_listValue (pieces : List (List Char)) : trim (listValue pieces) = listValue pieces :=
  trim_of_ends (by decide) (by decide) _

theorem tagLine?_typeLine (pieces : List (List Char)) :
    tagLine? (typeLine pieces) = some ("type".toList, listValue pieces) := by
  have hword : ∀ c ∈ "type".toList, isWord c = true := List.all_eq_true.mp (by decide)
  exact tagLine?_of_value (by decide) hword (trim_listValue pieces)

theorem isTagLine_typeLine (pieces : List (List Char)) : isTagLine (typeLine pieces) = true := by
  rw [isTagLine, tagLine?_typeLine]
  rfl

/-- A line that nothing goes on holds its doclet, between those of the lines before and after it. -/
theorem docletsOf_typeLine (front : List (List Char)) (pieces : List (List Char)) {back : List (List Char)}
    (hend : ∀ line, back.head? = some line → goesOn line = false) :
    docletsOf (front ++ typeLine pieces :: back) =
      docletsOf front ++ ⟨"type", String.ofList (listValue pieces)⟩ :: docletsOf back := by
  have hstop : goesOn (typeLine pieces) = false := by
    rw [goesOn, isTagLine_typeLine, Bool.not_true, Bool.and_false]
  have hback : back.takeWhile goesOn = [] := by
    cases back with
    | nil => rfl
    | cons next back => exact List.takeWhile_cons_of_neg (by rw [hend next rfl]; decide)
  rw [docletsOf_append_of_stop hstop, docletsOf_cons, docletAt_cons_zero, tagLine?_typeLine, hback]
  simp only [Option.map_some, List.map_nil, spaced_singleton]
  rfl

theorem parse_listValue (hne : listed ≠ []) (hpieces : List.Forall₂ Padded listed pieces)
    (hlisted : ∀ member ∈ listed, ListMember member) :
    WrittenType.parse (String.ofList (listValue pieces)) = WrittenType.ofMembers listed := by
  have hplain : WellNested (join ['|'] pieces) := by
    refine wellNested_join (by decide) fun piece hpiece => ?_
    exact wellNested_of_plain fun c hc => (plain_of_mem_pieces hpieces hlisted piece hpiece c hc).2.1
  have hnested : WellNested (listValue pieces) := .pair (by decide) (.pair (by decide) hplain .nil) .nil
  have hbalanced : WrittenType.isBalanced (String.ofList (listValue pieces)).toList = true := by
    rw [String.toList_ofList]
    exact WrittenType.isBalanced_iff.mpr hnested.count_eq
  have hcore : WrittenType.unbrace (String.ofList (listValue pieces)).toList = '(' :: (join ['|'] pieces ++ [')']) := by
    rw [String.toList_ofList, WrittenType.unbrace_of_braces (trim_listValue pieces)]
    exact trim_of_ends (by decide) (by decide) _
  rw [WrittenType.parse_of_list hbalanced hcore, members_join hne hpieces hlisted]

theorem ofMembers_of_literal (hne : listed ≠ []) (hlisted : ∀ member ∈ listed, ListMember member)
    (h : ∀ member ∈ listed, Literal member) :
    WrittenType.ofMembers listed = .enum (listed.map String.ofList) := by
  have hall : listed.all isLiteral = true := List.all_eq_true.mpr fun member hmember =>
    (isLiteral_iff (hlisted member hmember).line_feed_notMem).mpr (h member hmember)
  rw [WrittenType.ofMembers, hall, List.isEmpty_eq_false_iff.mpr hne]
  rfl

theorem ofMembers_of_not_literal (hlisted : ∀ member ∈ listed, ListMember member)
    (h : ∃ member ∈ listed, ¬ Literal member) : WrittenType.ofMembers listed = .union (listed.map String.ofList) := by
  obtain ⟨member, hmember, hnot⟩ := h
  have hall : listed.all isLiteral = false := by
    rw [← Bool.not_eq_true, List.all_eq_true]
    exact fun h => hnot ((isLiteral_iff (hlisted member hmember).line_feed_notMem).mp (h member hmember))
  rw [WrittenType.ofMembers, hall, Bool.and_false]
  rfl

/-- **The members that a `@type` line lists come back in order**, as an enum if all of them are literals and as a union
otherwise. The line stands anywhere in a description, nothing goes on it, and no `@type` doclet comes after it. -/
theorem type_of_typeLine {description : String} {front back : List (List Char)} {prop : Record} (hne : listed ≠ [])
    (hlisted : ∀ member ∈ listed, ListMember member) (hpieces : List.Forall₂ Padded listed pieces)
    (hlines : splitLines description.toList = front ++ typeLine pieces :: back)
    (hend : ∀ line, back.head? = some line → goesOn line = false) (hback : ∀ doclet ∈ docletsOf back, doclet.tag ≠ "type")
    (hprop : Carries prop (Doclet.parse description)) :
    ofProp prop = .ok (Doclet.parse description) ∧
    ∃ result, overrideAll prop (Doclet.parse description) = .ok result ∧
      ((∀ member ∈ listed, Literal member) →
        Fields.get? result "type" = some (.obj [("name", .str "enum"), ("value", .arr (listed.map fun member =>
          .obj [("value", .str (String.ofList member)), ("computed", .bool false)]))])) ∧
      ((∃ member ∈ listed, ¬ Literal member) →
        Fields.get? result "type" = some (.obj [("name", .str "union"), ("value", .arr (listed.map fun member =>
          .obj [("name", .str (String.ofList member))]))])) := by
  have hlast : last? SetsType (Doclet.parse description) = some ⟨"type", String.ofList (listValue pieces)⟩ := by
    have hnone : (docletsOf back).filter SetsType = [] := by
      rw [List.filter_eq_nil_iff]
      intro doclet hdoclet
      rw [decide_eq_true_iff]
      exact hback doclet hdoclet
    have htag : SetsType ⟨"type", String.ofList (listValue pieces)⟩ := rfl
    rw [parse_eq_docletsOf, hlines, docletsOf_typeLine front pieces hend, last?, List.filter_append,
      List.filter_cons_of_pos (by simpa using htag), hnone, List.getLast?_concat]
  obtain ⟨result, hresult, htype⟩ := exists_overrideAll_type hlast prop
  rw [parse_listValue hne hpieces hlisted] at htype
  refine ⟨ofProp_of_carries hprop, result, hresult, fun hall => ?_, fun hexists => ?_⟩
  · rw [htype, ofMembers_of_literal hne hlisted hall, WrittenType.toJson, List.map_map]
    rfl
  · rw [htype, ofMembers_of_not_literal hlisted hexists, WrittenType.toJson, List.map_map]
    rfl

end

/-- Literals of three kinds. -/
def sampleLiterals : List (List Char) := ["\"small\"".toList, "-2.5".toList, "null".toList]

/-- The literals with blanks around some of them. -/
def samplePieces : List (List Char) := [" \"small\" ".toList, "-2.5".toList, "\tnull".toList]

/-- A description that lists the literals between other doclets. -/
def sampleDescription : String :=
  "Size.\n@type \x7bX\x7d\n@type \x7b( \"small\" |-2.5|\tnull)\x7d\n\nSee below.\n@default null"

theorem padded_samplePieces : List.Forall₂ Padded sampleLiterals samplePieces := by
  have hnone : IsSpace [] := ⟨rfl, List.forall_mem_nil _⟩
  have hspace : IsSpace [' '] := ⟨by decide, List.forall_mem_singleton.mpr (by decide)⟩
  have htab : IsSpace ['\t'] := ⟨by decide, List.forall_mem_singleton.mpr (by decide)⟩
  exact .cons ⟨[' '], [' '], hspace, hspace, rfl⟩
    (.cons ⟨[], [], hnone, hnone, rfl⟩ (.cons ⟨['\t'], [], htab, hnone, rfl⟩ .nil))

theorem listMember_of_mem_sampleLiterals : ∀ member ∈ sampleLiterals, ListMember member := by decide

theorem literal_of_mem_sampleLiterals : ∀ member ∈ sampleLiterals, Literal member := by
  intro member hmember
  rw [← isLiteral_iff (listMember_of_mem_sampleLiterals member hmember).line_feed_notMem]
  revert member
  decide

theorem type_of_sampleDescription :
    splitLines sampleDescription.toList =
      ["Size.".toList, "@type \x7bX\x7d".toList] ++
        typeLine samplePieces :: [[], "See below.".toList, "@default null".toList] ∧
    ∃ result, overrideAll (propWith (Doclet.parse sampleDescription)) (Doclet.parse sampleDescription) = .ok result ∧
      Fields.get? result "type" = some (.obj [("name", .str "enum"), ("value", .arr [
        .obj [("value", .str "\"small\""), ("computed", .bool false)],
        .obj [("value", .str "-2.5"), ("computed", .bool false)],
        .obj [("value", .str "null"), ("computed", .bool false)]])]) := by
  have hlines : splitLines sampleDescription.toList = ["Size.".toList, "@type \x7bX\x7d".toList] ++
      typeLine samplePieces :: [[], "See below.".toList, "@default null".toList] := by decide +kernel
  have hend : ∀ line, [[], "See below.".toList, "@default null".toList].head? = some line → goesOn line = false := by
    intro line hline
    rw [← Option.some.inj hline]
    decide
  obtain ⟨-, result, hresult, henum, -⟩ := type_of_typeLine (by decide) listMember_of_mem_sampleLiterals
    padded_samplePieces hlines hend (by decide +kernel) (carries_propWith (Doclet.parse sampleDescription))
  exact ⟨hlines, result, hresult, henum literal_of_mem_sampleLiterals⟩

end Doclet

end ComponentDocs

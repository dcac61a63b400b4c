import ComponentDocs.Proofs.Doclet.LastWins
import ComponentDocs.Proofs.Text.Nesting

/-!
# Brackets in type values

A type value may stand in braces, and its members between parentheses. The value is taken apart by its first and its last
character and at its bars, whatever the brackets between them match.

* `between?_eq_some_iff`, `unbrace_of_braces`, `unbrace_of_not_braces`: what stands between two characters and in braces;
* `parse_of_not_balanced`, `parse_of_list`, `parse_of_name`: the three ways a value is read;
* `FollowsBrackets`: a type takes a value apart only at brackets that match each other;
* `CutsMatch`: the brackets of a value match where it is taken apart;
* **`followsBrackets_parse_iff`**: the type that is read follows the brackets exactly if these match;
* **`type_of_last_doclet`**: this is the type that the doclets of a prop give it.
-/

namespace ComponentDocs

namespace WrittenType

open Text

variable {left right : Char} {cs inner list value : List Char}

/-! ## Ends -/

theorem between?_eq_some_iff : between? left right cs = some inner ↔ cs = left :: (inner ++ [right]) := by
  cases cs with
  | nil => simp [between?]
  | cons c rest =>
    rw [between?, List.cons.injEq]
    constructor
    · intro h
      split_ifs at h with hends
      obtain ⟨rfl, hlast⟩ := hends
      obtain ⟨init, rfl⟩ := List.getLast?_eq_some_iff.mp hlast
      rw [List.dropLast_concat, Option.some.injEq] at h
      exact ⟨rfl, by rw [h]⟩
    · rintro ⟨rfl, rfl⟩
      rw [if_pos ⟨rfl, List.getLast?_concat⟩, List.dropLast_concat]

theorem between?_eq_none_iff : between? left right cs = none ↔ ∀ inner, cs ≠ left :: (inner ++ [right]) := by
  rw [Option.eq_none_iff_forall_ne_some]
  exact forall_congr' fun inner => between?_eq_some_iff.not

theorem unbrace_of_braces (h : trim value = '\x7b' :: (inner ++ ['\x7d'])) : unbrace value = trim inner := by
  rw [unbrace, between?_eq_some_iff.mpr h]

theorem unbrace_of_not_braces (h : ∀ inner, trim value ≠ '\x7b' :: (inner ++ ['\x7d'])) :
    unbrace value = trim value := by
  rw [unbrace, between?_eq_none_iff.mpr h]

/-! ## Members -/

theorem mem_members_iff {member : List Char} :
    member ∈ members list ↔ member ≠ [] ∧ ∃ piece ∈ splitAt '|' list, trim piece = member := by
  rw [members, List.mem_filter, List.mem_map, Bool.not_eq_true', List.isEmpty_eq_false_iff, and_comm]

/-- Blanks and empty members have no brackets. -/
theorem wellNested_members_iff :
    (∀ member ∈ members list, WellNested member) ↔ ∀ piece ∈ splitAt '|' list, WellNested piece := by
  constructor
  · intro h piece hpiece
    rw [← wellNested_trim]
    by_cases hempty : trim piece = []
    · rw [hempty]
      exact .nil
    · exact h _ (mem_members_iff.mpr ⟨hempty, piece, hpiece, rfl⟩)
  · intro h member hmember
    obtain ⟨-, piece, hpiece, rfl⟩ := mem_members_iff.mp hmember
    exact (wellNested_trim piece).mpr (h piece hpiece)

/-- The texts that the type stores as names: its own, or those of its members. -/
def names : WrittenType → List String
  | name text => [text]
  | enum members => members
  | union members => members

theorem ofMembers_cases (found : List (List Char)) :
    ofMembers found = enum (found.map String.ofList) ∨ ofMembers found = union (found.map String.ofList) := by
  unfold ofMembers
  split_ifs
  · exact .inl rfl
  · exact .inr rfl

theorem names_ofMembers (found : List (List Char)) : (ofMembers found).names = found.map String.ofList := by
  rcases ofMembers_cases found with h | h <;> rw [h, names]

theorem ofMembers_ne_name (found : List (List Char)) (text : String) : ofMembers found ≠ name text := by
  rcases ofMembers_cases found with h | h <;> rw [h] <;> simp

/-! ## Reading -/

section

variable {text : String}

theorem isBalanced_iff : isBalanced value = true ↔
    value.count '\x7b' = value.count '\x7d' ∧ value.count '(' = value.count ')' := by
  rw [isBalanced, Bool.and_eq_true, beq_iff_eq, beq_iff_eq]

theorem parse_of_not_balanced (h : isBalanced text.toList = false) : parse text = name (trimString text) := by
  simp only [parse, h, Bool.not_false, if_true]

theorem parse_of_list (h : isBalanced text.toList = true) (hlist : unbrace text.toList = '(' :: (list ++ [')'])) :
    parse text = ofMembers (members list) := by
  simp only [parse, h, Bool.not_true, Bool.false_eq_true, if_false, between?_eq_some_iff.mpr hlist]

theorem parse_of_name (h : isBalanced text.toList = true) (hlist : ∀ list, unbrace text.toList ≠ '(' :: (list ++ [')'])) :
    parse text = name (String.ofList (unbrace text.toList)) := by
  simp only [parse, h, Bool.not_true, Bool.false_eq_true, if_false, between?_eq_none_iff.mpr hlist]

end

/-! ## Following the brackets -/

/-- The type takes a value apart only at brackets that match each other. -/
structure FollowsBrackets (value : List Char) (type : WrittenType) : Prop where
  /-- A value whose brackets do not match is a name as it stands. -/
  malformed : ¬ WellNested value → type = name (String.ofList (trim value))
  /-- Braces are removed only if they match each other, and members are read only between two parentheses that match each
  other. -/
  matched : WellNested value → ∃ core,
    (core = trim value ∨ ∃ inner, Encloses '\x7b' '\x7d' (trim value) inner ∧ core = trim inner) ∧
    (type = name (String.ofList core) ∨ ∃ list, Encloses '(' ')' core list ∧
      (type = enum ((members list).map String.ofList) ∨ type = union ((members list).map String.ofList)))
  /-- The brackets of every name match. -/
  names : WellNested value → ∀ text ∈ type.names, WellNested text.toList

/-- The brackets of a value match where it is taken apart. -/
structure CutsMatch (value : List Char) : Prop where
  /-- A value whose brackets do not match has more of one bracket than of its partner, or neither braces nor parentheses
  at its ends. -/
  malformed : ¬ WellNested value → value.count '\x7b' ≠ value.count '\x7d' ∨ value.count '(' ≠ value.count ')' ∨
    ∀ inner, trim value ≠ '\x7b' :: (inner ++ ['\x7d']) ∧ trim value ≠ '(' :: (inner ++ [')'])
  /-- The brackets between braces at its ends match, unless a list stands there. -/
  name : WellNested value → (∀ list, unbrace value ≠ '(' :: (list ++ [')'])) →
    ∀ inner, trim value = '\x7b' :: (inner ++ ['\x7d']) → WellNested inner
  /-- The brackets of every piece of a list match: no bar stands between brackets. -/
  list : WellNested value → ∀ list, unbrace value = '(' :: (list ++ [')']) → ∀ piece ∈ splitAt '|' list, WellNested piece

/-- A value in braces or parentheses is not read as it stands. -/
theorem parse_ne_of_ends {text : String} (hbalanced : isBalanced text.toList = true)
    (h : trim text.toList = '\x7b' :: (inner ++ ['\x7d']) ∨ trim text.toList = '(' :: (inner ++ [')'])) :
    parse text ≠ .name (String.ofList (trim text.toList)) := by
  by_cases hlist : ∃ list, unbrace text.toList = '(' :: (list ++ [')'])
  · obtain ⟨list, hlist⟩ := hlist
    rw [parse_of_list hbalanced hlist]
    exact ofMembers_ne_name _ _
  · rw [not_exists] at hlist
    rcases h with hbraces | hparens
    · rw [parse_of_name hbalanced hlist, Ne, name.injEq, unbrace_of_braces hbraces, hbraces]
      intro heq
      have hlength := congrArg List.length (String.ofList_injective heq)
      have hshort := (isInfix_trim inner).length_le
      simp only [List.length_cons, List.length_append, List.length_nil] at hlength
      omega
    · refine absurd ?_ (hlist inner)
      rw [unbrace_of_not_braces fun other hother => ?_, hparens]
      rw [hparens, List.cons.injEq] at hother
      exact absurd hother.1 (by decide)

theorem CutsMatch.of_followsBrackets {text : String} (h : FollowsBrackets text.toList (parse text)) :
    CutsMatch text.toList where
  malformed := by
    intro hnested
    by_contra hnot
    push Not at hnot
    obtain ⟨hbraces, hparens, inner, hends⟩ := hnot
    have hcut : trim text.toList = '\x7b' :: (inner ++ ['\x7d']) ∨ trim text.toList = '(' :: (inner ++ [')']) :=
      or_iff_not_imp_left.mpr hends
    exact parse_ne_of_ends (isBalanced_iff.mpr ⟨hbraces, hparens⟩) hcut (h.malformed hnested)
  name := by
    intro hnested hlist inner hinner
    have hnames := h.names hnested
    rw [parse_of_name (isBalanced_iff.mpr hnested.count_eq) hlist, unbrace_of_braces hinner] at hnames
    rw [← wellNested_trim, ← String.toList_ofList (l := trim inner)]
    exact hnames _ (List.mem_singleton_self _)
  list := by
    intro hnested list hlist
    have hnames := h.names hnested
    rw [parse_of_list (isBalanced_iff.mpr hnested.count_eq) hlist, names_ofMembers, List.forall_mem_map] at hnames
    refine wellNested_members_iff.mp fun member hmember => ?_
    simpa only [String.toList_ofList] using hnames member hmember

/-- The text without the braces, if what stands between them has matching brackets. -/
theorem exists_core (h : ∀ inner, trim value = '\x7b' :: (inner ++ ['\x7d']) → WellNested inner) :
    unbrace value = trim value ∨ ∃ inner, Encloses '\x7b' '\x7d' (trim value) inner ∧ unbrace value = trim inner := by
  by_cases hbraces : ∃ inner, trim value = '\x7b' :: (inner ++ ['\x7d'])
  · obtain ⟨inner, hinner⟩ := hbraces
    exact .inr ⟨inner, ⟨hinner, h inner hinner⟩, unbrace_of_braces hinner⟩
  · exact .inl (unbrace_of_not_braces (not_exists.mp hbraces))

theorem CutsMatch.followsBrackets {text : String} (h : CutsMatch text.toList) :
    FollowsBrackets text.toList (parse text) := by
  by_cases hnested : WellNested text.toList
  · have hbalanced := isBalanced_iff.mpr hnested.count_eq
    by_cases hlist : ∃ list, unbrace text.toList = '(' :: (list ++ [')'])
    · obtain ⟨list, hlist⟩ := hlist
      have hpieces := h.list hnested list hlist
      have hencloses : Encloses '(' ')' (unbrace text.toList) list := ⟨hlist, wellNested_of_pieces (by decide) hpieces⟩
      -- the list has matching brackets, so the braces around it match each other
      have hinner : ∀ inner, trim text.toList = '\x7b' :: (inner ++ ['\x7d']) → WellNested inner := by
        intro inner hbraces
        rw [← wellNested_trim, ← unbrace_of_braces hbraces]
        exact hencloses.wellNested (by decide)
      have hcore := exists_core hinner
      rw [parse_of_list hbalanced hlist]
      refine ⟨absurd hnested, fun _ => ⟨_, hcore, .inr ⟨list, hencloses, ofMembers_cases _⟩⟩, fun _ => ?_⟩
      rw [names_ofMembers, List.forall_mem_map]
      intro member hmember
      rw [String.toList_ofList]
      exact wellNested_members_iff.mpr hpieces member hmember
    · rw [not_exists] at hlist
      have hcore := exists_core (h.name hnested hlist)
      rw [parse_of_name hbalanced hlist]
      refine ⟨absurd hnested, fun _ => ⟨_, hcore, .inl rfl⟩, fun _ => ?_⟩
      rw [WrittenType.names, List.forall_mem_singleton, String.toList_ofList]
      rcases hcore with hsame | ⟨inner, hencloses, hinner⟩
      · rwa [hsame, wellNested_trim]
      · rw [hinner, wellNested_trim]
        exact hencloses.2
  · refine ⟨fun _ => ?_, fun h => absurd h hnested, fun h => absurd h hnested⟩
    by_cases hbalanced : isBalanced text.toList = true
    · obtain ⟨hbraces, hparens⟩ := isBalanced_iff.mp hbalanced
      have hends := ((h.malformed hnested).resolve_left (not_not.mpr hbraces)).resolve_left (not_not.mpr hparens)
      have hcore := unbrace_of_not_braces fun inner => (hends inner).1
      rw [parse_of_name hbalanced fun list => hcore ▸ (hends list).2, hcore]
    · exact parse_of_not_balanced (Bool.eq_false_iff.mpr hbalanced)

/-- **The type that is read follows the brackets of a value exactly if they match where the value is taken apart.** -/
theorem followsBrackets_parse_iff (text : String) :
    FollowsBrackets text.toList (parse text) ↔ CutsMatch text.toList :=
  ⟨CutsMatch.of_followsBrackets, CutsMatch.followsBrackets⟩

end WrittenType

namespace Doclet

open Text WrittenType

/-- **The type that doclets give a prop is read from the last `@type` value, and follows its brackets exactly if these
match where the value is taken apart.** -/
theorem type_of_last_doclet {prop : Record} {doclets : List Doclet} {doclet : Doclet} (h : Carries prop doclets)
    (hlast : last? SetsType doclets = some doclet) : ofProp prop = .ok doclets ∧
      (∃ result, overrideAll prop doclets = .ok result ∧
        Fields.get? result "type" = some (WrittenType.parse doclet.value).toJson) ∧
      (FollowsBrackets doclet.value.toList (WrittenType.parse doclet.value) ↔ CutsMatch doclet.value.toList) :=
  ⟨ofProp_of_carries h, exists_overrideAll_type hlast prop, followsBrackets_parse_iff doclet.value⟩

/-- A list with brackets inside its members. -/
def nestedMembers : List Doclet := [⟨"type", "\x7b(\x7ba: (A)\x7d|f(B))\x7d"⟩]

/-- Two types in braces of their own. -/
def strayBraces : List Doclet := nestedMembers ++ [⟨"type", "\x7bA\x7d|\x7bB\x7d"⟩]

theorem cutsMatch_nestedMembers : CutsMatch "\x7b(\x7ba: (A)\x7d|f(B))\x7d".toList where
  malformed := absurd (by decide)
  name := fun _ h => absurd (by decide) (h "\x7ba: (A)\x7d|f(B)".toList)
  list := by
    intro _ list hlist
    have hcore : unbrace "\x7b(\x7ba: (A)\x7d|f(B))\x7d".toList = '(' :: ("\x7ba: (A)\x7d|f(B)".toList ++ [')']) := by
      decide
    rw [hcore, List.cons.injEq, List.append_cancel_right_eq] at hlist
    rw [← hlist.2]
    decide

theorem not_cutsMatch_strayBraces : ¬ CutsMatch "\x7bA\x7d|\x7bB\x7d".toList := by
  intro h
  have hinner : WellNested "A\x7d|\x7bB".toList := by
    refine h.name (by decide) (fun list hlist => ?_) _ (by decide)
    rw [show unbrace "\x7bA\x7d|\x7bB\x7d".toList = "A\x7d|\x7bB".toList by decide] at hlist
    exact absurd (List.cons.inj hlist).1 (by decide)
  exact absurd hinner (by decide)

theorem type_of_strayBraces :
    (Carries (propWith nestedMembers) nestedMembers ∧
      last? SetsType nestedMembers = some ⟨"type", "\x7b(\x7ba: (A)\x7d|f(B))\x7d"⟩ ∧
      (∃ result, overrideAll (propWith nestedMembers) nestedMembers = .ok result ∧
        Fields.get? result "type" = some (WrittenType.union ["\x7ba: (A)\x7d", "f(B)"]).toJson) ∧
      FollowsBrackets "\x7b(\x7ba: (A)\x7d|f(B))\x7d".toList (.union ["\x7ba: (A)\x7d", "f(B)"])) ∧
    (Carries (propWith strayBraces) strayBraces ∧
      last? SetsType strayBraces = some ⟨"type", "\x7bA\x7d|\x7bB\x7d"⟩ ∧
      (∃ result, overrideAll (propWith strayBraces) strayBraces = .ok result ∧
        Fields.get? result "type" = some (WrittenType.name "A\x7d|\x7bB").toJson) ∧
      ¬ FollowsBrackets "\x7bA\x7d|\x7bB\x7d".toList (.name "A\x7d|\x7bB")) := by
  have hnested : last? SetsType nestedMembers = some ⟨"type", "\x7b(\x7ba: (A)\x7d|f(B))\x7d"⟩ := by decide
  have hstray : last? SetsType strayBraces = some ⟨"type", "\x7bA\x7d|\x7bB\x7d"⟩ := by decide
  obtain ⟨-, hunion, hfollows⟩ := type_of_last_doclet (carries_propWith nestedMembers) hnested
  obtain ⟨-, hname, hastray⟩ := type_of_last_doclet (carries_propWith strayBraces) hstray
  have hparsed : WrittenType.parse "\x7b(\x7ba: (A)\x7d|f(B))\x7d" = .union ["\x7ba: (A)\x7d", "f(B)"] := by decide
  have hcut : WrittenType.parse "\x7bA\x7d|\x7bB\x7d" = .name "A\x7d|\x7bB" := by decide
  rw [hparsed] at hunion hfollows
  rw [hcut] at hname hastray
  exact ⟨⟨carries_propWith _, hnested, hunion, hfollows.mpr cutsMatch_nestedMembers⟩,
    carries_propWith _, hstray, hname, hastray.not.mpr not_cutsMatch_strayBraces⟩

end Doclet

end ComponentDocs

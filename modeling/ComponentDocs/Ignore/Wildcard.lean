import ComponentDocs.Text.Lines

/-!
# Wildcards

Patterns of file names. A pattern is a list of wildcards, and it fits a path if the wildcards one after
the other fit a beginning of the path.

* `CharSet`, `Wildcard`, `Wildcard.rests`: what may be left of a path after a wildcard;
* `Wildcard.fits`: a list of wildcards fits a beginning of a path;
* `Wildcard.readName?`: the wildcards of a name with `*`, `?`, `[...]` and `\`.
-/

namespace ComponentDocs

/-- The characters between some bounds, or all others. -/
structure CharSet where
  negated : Bool
  ranges : List (Char × Char)
deriving DecidableEq, Repr

/-- The character is in the set. -/
def CharSet.contains (set : CharSet) (c : Char) : Bool :=
  (set.ranges.any fun range => decide (range.1 ≤ c ∧ c ≤ range.2)) != set.negated

/-- A part of a pattern. -/
inductive Wildcard where
  /-- One character. -/
  | exactly (c : Char)
  /-- A character of a set. -/
  | oneOf (set : CharSet)
  /-- A character that is no slash. -/
  | anyChar
  /-- Any characters that are no slashes. -/
  | run
  /-- At least one character that is no slash. -/
  | wholeName
  /-- Any folders from the top. -/
  | anyFolders
  /-- Any folders after a name, each with the slash before it. -/
  | innerFolders
  /-- A slash or the end of the path. -/
  | nameEnd
deriving DecidableEq, Repr

/-! ## Fitting -/

/-- What may be left after some characters that are no slashes. -/
def afterRun : List Char → List (List Char)
  | [] => [[]]
  | c :: rest => (c :: rest) :: (if c = '/' then [] else afterRun rest)

/-- What is left after each slash of the line. -/
def afterSlashes : List Char → List (List Char)
  | [] => []
  | c :: rest => if c = '\n' then [] else if c = '/' then rest :: afterSlashes rest else afterSlashes rest

/-- What may be left after some characters of the line. -/
def withinLine : List Char → List (List Char)
  | [] => [[]]
  | c :: rest => (c :: rest) :: (if c = '\n' then [] else withinLine rest)

/-- What may be left of a text after a wildcard; nothing if the wildcard does not fit. -/
def Wildcard.rests : Wildcard → List Char → List (List Char)
  | exactly c, first :: rest => if first = c then [rest] else []
  | oneOf set, first :: rest => if set.contains first then [rest] else []
  | anyChar, first :: rest => if first = '/' then [] else [rest]
  | run, cs => afterRun cs
  | wholeName, first :: rest => if first = '/' then [] else afterRun rest
  | anyFolders, cs =>
    cs :: match cs with
      | [] => []
      | first :: rest => if first = '\n' then [] else afterSlashes rest
  | innerFolders, cs =>
    cs :: match cs with
      | '/' :: first :: rest => if first = '\n' then [] else withinLine rest
      | _ => []
  | nameEnd, [] => [[]]
  | nameEnd, first :: rest => if first = '/' then [rest] else []
  | _, [] => []

/-- The wildcards fit a beginning of the text. -/
def Wildcard.fits : List Wildcard → List Char → Bool
  | [], _ => true
  | wildcard :: more, cs => (wildcard.rests cs).any (fits more)

/-! ## Reading -/

/-- The ranges that characters write; a dash between two characters makes a range of them. -/
def CharSet.readRanges : List Char → List (Char × Char)
  | low :: '-' :: high :: rest => (low, high) :: readRanges rest
  | c :: rest => (c, c) :: readRanges rest
  | [] => []

/-- The sign that a set is negated, and the rest. -/
def readNegation : List Char → Bool × List Char
  | '!' :: rest => (true, rest)
  | '^' :: rest => (true, rest)
  | cs => (false, cs)

/-- The set after an opening bracket and what follows it. The first character of a set does not close
it; without a closing bracket there is no set. -/
def CharSet.read? (cs : List Char) : Option (CharSet × List Char) :=
  let body := (readNegation cs).2
  match (body.drop 1).dropWhile (· ≠ ']') with
  | [] => none
  | _ :: rest =>
    some (⟨(readNegation cs).1, CharSet.readRanges (body.take 1 ++ (body.drop 1).takeWhile (· ≠ ']'))⟩, rest)

theorem length_readNegation (cs : List Char) : (readNegation cs).2.length ≤ cs.length := by
  unfold readNegation
  split <;> simp

/-- A set takes characters. -/
theorem CharSet.length_read {cs : List Char} {set : CharSet} {rest : List Char}
    (h : CharSet.read? cs = some (set, rest)) : rest.length < cs.length := by
  have negation := length_readNegation cs
  have body := (List.dropWhile_sublist (l := (readNegation cs).2.drop 1) (· ≠ ']')).length_le
  simp only [CharSet.read?] at h
  split at h
  · simp at h
  · rename_i first rest' found
    simp only [Option.some.injEq, Prod.mk.injEq] at h
    rw [found, h.2] at body
    simp only [List.length_cons, List.length_drop] at body
    omega

/-- The wildcards of a name. A backslash takes away the meaning of the character after it, and there
has to be one. -/
def Wildcard.readName? (cs : List Char) : Option (List Wildcard) :=
  match cs with
  | [] => some []
  | ['\\'] => none
  | '\\' :: c :: rest => (readName? rest).map (.exactly c :: ·)
  | '*' :: rest => (readName? rest).map (.run :: ·)
  | '?' :: rest => (readName? rest).map (.anyChar :: ·)
  | '[' :: rest =>
    match h : CharSet.read? rest with
    | some (set, more) =>
      have := CharSet.length_read h
      (readName? more).map (.oneOf set :: ·)
    | none => (readName? rest).map (.exactly '[' :: ·)
  | c :: rest => (readName? rest).map (.exactly c :: ·)
termination_by cs.length
decreasing_by all_goals simp only [List.length_cons]; omega

end ComponentDocs

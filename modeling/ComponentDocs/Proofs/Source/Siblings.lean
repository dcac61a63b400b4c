import ComponentDocs.Proofs.Source.Docblock

/-!
# Comments between siblings

Which of the comments between the children of a node documents which child.

* `SourceFile.IsDocumentation`: a comment that starts with `/**`;
* `SourceFile.Documents`: the last such comment in front of a child, behind the nearest part before it;
* `docAmong_reverse_take_eq_some_iff`: the search for a comment finds this one; `siblingsBefore_eq_take`: it starts at
  the child;
* `Documents.le_of_isPartAt`: a comment documents nothing behind the next part;
* **`docblockBefore_iff_documents`**: a child is documented by its comment, and no two parts by the same one.
-/

namespace ComponentDocs

namespace SourceFile

open Text

variable {src : SourceFile} {siblings before nearest : List Node} {node sibling : Node} {text : String} {i j k : ℕ}

/-! ## Documentation comments -/

/-- The node is a comment whose text starts, behind blanks at most, with `/**`. -/
def IsDocumentation (src : SourceFile) (node : Node) : Prop :=
  node.isComment = true ∧
    ∃ blanks rest, isBlankLine blanks = true ∧ (src.text node).toList = blanks ++ "/**".toList ++ rest

theorem isDocumentation_iff :
    src.IsDocumentation node ↔ node.isComment = true ∧ isDocComment (src.text node).toList = true := by
  refine and_congr_right fun _ => ?_
  rw [isDocComment, List.isPrefixOf_iff_prefix]
  constructor
  · rintro ⟨blanks, rest, hblanks, htext⟩
    rw [htext, List.append_assoc, trimStart, List.dropWhile_append_of_pos (isBlankLine_iff.mp hblanks)]
    exact ⟨rest, rfl⟩
  · rintro ⟨rest, hrest⟩
    refine ⟨(src.text node).toList.takeWhile isBlank, rest, List.all_takeWhile, ?_⟩
    rw [List.append_assoc]
    exact (List.takeWhile_append_dropWhile.symm.trans (congrArg _ hrest.symm))

instance (src : SourceFile) (node : Node) : Decidable (src.IsDocumentation node) :=
  decidable_of_iff' _ isDocumentation_iff

theorem passes_iff : src.Passes sibling ↔ sibling.isPart = false ∧ ¬ src.IsDocumentation sibling := by
  rw [Passes, isDocumentation_iff, Node.isPart]
  cases sibling.isComment <;> simp

/-! ## The comment of a sibling -/

/-- The siblings between those at two indices. -/
def between (siblings : List Node) (i j : ℕ) : List Node := (siblings.take j).drop (i + 1)

/-- The sibling at index `i` documents the one at index `j`: it is a documentation comment in front of it, and between
them is no part and no other documentation comment. -/
structure Documents (src : SourceFile) (siblings : List Node) (i j : ℕ) : Prop where
  lt : i < j
  isDocumentation : ∃ comment, siblings[i]? = some comment ∧ src.IsDocumentation comment
  apart : ∀ sibling ∈ between siblings i j, sibling.isPart = false ∧ ¬ src.IsDocumentation sibling

/-- The search ends at the first documentation comment before which it goes past all siblings. -/
theorem docAmong_eq_some_iff : src.docAmong nearest = some text ↔ ∃ passed comment rest,
    nearest = passed ++ comment :: rest ∧ (∀ sibling ∈ passed, src.Passes sibling) ∧
      src.IsDocumentation comment ∧ text = docString (src.text comment) := by
  constructor
  · intro h
    induction nearest with
    | nil => cases h
    | cons sibling nearest ih =>
      have hnext : src.Passes sibling → src.docAmong nearest = some text → ∃ passed comment rest,
          sibling :: nearest = passed ++ comment :: rest ∧ (∀ sibling ∈ passed, src.Passes sibling) ∧
            src.IsDocumentation comment ∧ text = docString (src.text comment) := by
        intro hpasses hfound
        obtain ⟨passed, comment, rest, rfl, hpassed, hcomment⟩ := ih hfound
        exact ⟨sibling :: passed, comment, rest, rfl, List.forall_mem_cons.mpr ⟨hpasses, hpassed⟩, hcomment⟩
      rw [docAmong] at h
      split_ifs at h with hcomment hdoc hnamed
      · exact ⟨[], sibling, nearest, rfl, by simp, isDocumentation_iff.mpr ⟨hcomment, hdoc⟩, (Option.some.inj h).symm⟩
      · exact hnext (by rw [Passes, if_pos hcomment, Bool.eq_false_iff.mpr hdoc]) h
      · exact hnext (by rw [Passes, if_neg hcomment, Bool.eq_false_iff.mpr hnamed]) h
  · rintro ⟨passed, comment, rest, rfl, hpassed, hcomment, rfl⟩
    obtain ⟨hcomment, hdoc⟩ := isDocumentation_iff.mp hcomment
    rw [docAmong_append_of_passes hpassed, docAmong, if_pos hcomment, if_pos hdoc]

theorem take_eq_append_between (hi : i < j) (hat : siblings[i]? = some sibling) :
    siblings.take j = siblings.take i ++ sibling :: between siblings i j := by
  have hbefore : (siblings.take j)[i]? = some sibling := (List.getElem?_take_of_lt hi).trans hat
  obtain ⟨hlt, hget⟩ := List.getElem?_eq_some_iff.mp hbefore
  have hdrop : (siblings.take j).drop i = sibling :: between siblings i j := by
    rw [List.drop_eq_getElem_cons hlt, hget, between]
  have htake : (siblings.take j).take i = siblings.take i := by rw [List.take_take, Nat.min_eq_left hi.le]
  rw [← hdrop, ← htake, List.take_append_drop]

theorem between_of_take_eq {earlier later : List Node} (h : siblings.take j = earlier ++ sibling :: later) :
    earlier.length < j ∧ siblings[earlier.length]? = some sibling ∧ between siblings earlier.length j = later := by
  have hat : (siblings.take j)[earlier.length]? = some sibling := by rw [h]; simp
  obtain ⟨hlt, -⟩ := List.getElem?_eq_some_iff.mp hat
  have hj : earlier.length < j := hlt.trans_le (List.length_take_le j siblings)
  refine ⟨hj, (List.getElem?_take_of_lt hj).symm.trans hat, ?_⟩
  rw [between, h]
  simp

/-- The search back from a sibling finds the comment that documents it. -/
theorem docAmong_reverse_take_eq_some_iff : src.docAmong (siblings.take j).reverse = some text ↔
    ∃ i comment, siblings[i]? = some comment ∧ src.Documents siblings i j ∧ text = docString (src.text comment) := by
  rw [docAmong_eq_some_iff]
  constructor
  · rintro ⟨passed, comment, rest, hsplit, hpassed, hcomment, htext⟩
    have htake : siblings.take j = rest.reverse ++ comment :: passed.reverse := by
      rw [← List.reverse_inj, hsplit]
      simp
    obtain ⟨hi, hat, hbetween⟩ := between_of_take_eq htake
    refine ⟨_, comment, hat, ⟨hi, ⟨comment, hat, hcomment⟩, fun sibling hsibling => ?_⟩, htext⟩
    rw [hbetween, List.mem_reverse] at hsibling
    exact passes_iff.mp (hpassed sibling hsibling)
  · rintro ⟨i, comment, hat, ⟨hi, ⟨other, hother, hcomment⟩, hbetween⟩, htext⟩
    obtain rfl : comment = other := Option.some.inj (hat.symm.trans hother)
    refine ⟨(between siblings i j).reverse, comment, (siblings.take i).reverse, ?_, fun sibling hsibling => ?_, hcomment,
      htext⟩
    · rw [take_eq_append_between hi hat]
      simp
    · exact passes_iff.mpr (hbetween sibling (List.mem_reverse.mp hsibling))

/-- The sibling at an index is a part. -/
def IsPartAt (siblings : List Node) (j : ℕ) : Prop := ∃ part, siblings[j]? = some part ∧ part.isPart = true

theorem Documents.le_of_isPartAt (h : src.Documents siblings i j) (hi : i < k) (hk : IsPartAt siblings k) : j ≤ k := by
  obtain ⟨part, hat, hpart⟩ := hk
  by_contra hlt
  have hmem : part ∈ between siblings i j := by
    rw [between, List.mem_iff_getElem?]
    refine ⟨k - (i + 1), ?_⟩
    rw [List.getElem?_drop, Nat.add_sub_cancel' hi, List.getElem?_take_of_lt (Nat.not_le.mp hlt)]
    exact hat
  rw [(h.apart part hmem).1] at hpart
  cases hpart

theorem Documents.eq_of_isPartAt (hj : src.Documents siblings i j) (hk : src.Documents siblings i k)
    (hpartj : IsPartAt siblings j) (hpartk : IsPartAt siblings k) : j = k :=
  Nat.le_antisymm (hj.le_of_isPartAt hk.lt hpartk) (hk.le_of_isPartAt hj.lt hpartj)

/-! ## Children of a node -/

/-- The nodes differ in their bytes or their kinds. -/
def Distinct (nodes : List Node) : Prop := nodes.Pairwise fun a b => a.same b = false

instance (nodes : List Node) : Decidable (Distinct nodes) := inferInstanceAs (Decidable (nodes.Pairwise _))

theorem siblingsBefore_eq_take (h : Distinct siblings) (hat : siblings[j]? = some node) :
    siblingsBefore node siblings = (siblings.take j).reverse := by
  obtain ⟨hj, hget⟩ := List.getElem?_eq_some_iff.mp hat
  have hsplit : siblings = siblings.take j ++ node :: siblings.drop (j + 1) := by
    rw [← hget, ← List.drop_eq_getElem_cons hj, List.take_append_drop]
  have hfirst : ∀ sibling ∈ siblings.take j, sibling.same node = false := by
    rw [hsplit, Distinct, List.pairwise_append] at h
    exact fun sibling hsibling => h.2.2 sibling hsibling node List.mem_cons_self
  calc siblingsBefore node siblings
    _ = siblingsBefore node (siblings.take j ++ node :: siblings.drop (j + 1)) := congrArg _ hsplit
    _ = (siblings.take j).reverse := siblingsBefore_eq hfirst

/-- **The documentation of a child is the text of the comment that documents it**, of the last one that starts with `/**`
behind the nearest part in front of the child, or behind the start of the children; without one there is none. No
comment documents two parts, or a child behind another part. -/
theorem docblockBefore_iff_documents {c : Cursor} (h : Distinct c.node.children) :
    (∀ j child, c.node.children[j]? = some child →
      (∀ text, src.docblockBefore (c.enter child) = some text ↔ ∃ i comment, c.node.children[i]? = some comment ∧
        src.Documents c.node.children i j ∧ text = docString (src.text comment)) ∧
      (src.docblockBefore (c.enter child) = none ↔ ∀ i, ¬ src.Documents c.node.children i j)) ∧
    (∀ i j k, src.Documents c.node.children i j → src.Documents c.node.children i k →
      IsPartAt c.node.children j → IsPartAt c.node.children k → j = k) ∧
    ∀ i j k, src.Documents c.node.children i j → IsPartAt c.node.children k → i < k → j ≤ k := by
  refine ⟨fun j child hat => ?_, fun i j k hj hk => hj.eq_of_isPartAt hk, fun i j k hj hk hi => hj.le_of_isPartAt hi hk⟩
  have hsearch : src.docblockBefore (c.enter child) = src.docAmong (c.node.children.take j).reverse := by
    rw [← siblingsBefore_eq_take h hat]
    rfl
  refine ⟨fun text => by rw [hsearch, docAmong_reverse_take_eq_some_iff], ?_⟩
  rw [hsearch, Option.eq_none_iff_forall_ne_some]
  constructor
  · intro hnone i hdocuments
    obtain ⟨comment, hcomment, -⟩ := hdocuments.isDocumentation
    exact hnone _ (docAmong_reverse_take_eq_some_iff.mpr ⟨i, comment, hcomment, hdocuments, rfl⟩)
  · intro hnone text hsome
    obtain ⟨i, -, -, hdocuments, -⟩ := docAmong_reverse_take_eq_some_iff.mp hsome
    exact hnone i hdocuments

/-- A source of three names with documentation before the first and the second, and other comments and signs between. -/
def documentedNames : SourceFile :=
  .ofTree none "/** A */ a; /* no */ /** B */ ; // no\n b c" .none
    (.mk "program" true false "" 0 42
      [.leaf "comment" true "" 0 8, .leaf "identifier" true "" 9 10, .leaf ";" false "" 10 11,
        .leaf "comment" true "" 12 20, .leaf "comment" true "" 21 29, .leaf ";" false "" 30 31,
        .leaf "comment" true "" 32 37, .leaf "identifier" true "" 39 40, .leaf "identifier" true "" 41 42])

theorem docblockBefore_documentedNames : Distinct documentedNames.top.node.children ∧
    documentedNames.docblockBefore (documentedNames.top.enter (.leaf "identifier" true "" 39 40)) = some "B" ∧
    documentedNames.docblockBefore (documentedNames.top.enter (.leaf "identifier" true "" 41 42)) = none := by
  have hdistinct : Distinct documentedNames.top.node.children := by decide
  obtain ⟨hfound, -, hbehind⟩ := @docblockBefore_iff_documents documentedNames _ hdistinct
  have hpart : IsPartAt documentedNames.top.node.children 7 := ⟨.leaf "identifier" true "" 39 40, rfl, rfl⟩
  have hdocuments : documentedNames.Documents documentedNames.top.node.children 4 7 :=
    ⟨by decide, ⟨.leaf "comment" true "" 21 29, rfl, by decide +kernel⟩, by decide +kernel⟩
  refine ⟨hdistinct, ((hfound 7 _ rfl).1 "B").mpr ⟨4, .leaf "comment" true "" 21 29, rfl, hdocuments, by decide +kernel⟩,
    (hfound 8 _ rfl).2.mpr fun i hi => ?_⟩
  -- a comment of the last name would stand behind the name before it
  have h7 : 7 ≤ i := Nat.not_lt.mp fun hlt => absurd (hbehind i 8 7 hi hpart hlt) (by decide)
  obtain rfl : i = 7 := Nat.le_antisymm (Nat.le_of_lt_succ hi.lt) h7
  obtain ⟨comment, hat, hcomment⟩ := hi.isDocumentation
  cases hat
  exact absurd hcomment (by decide +kernel)

end SourceFile

end ComponentDocs

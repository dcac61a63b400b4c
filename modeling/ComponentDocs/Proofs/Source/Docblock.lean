import ComponentDocs.Proofs.Source.Comment
import ComponentDocs.Proofs.Tree.Walk
import ComponentDocs.Source.Docblock

/-!
# Comments before a place

The search for the documentation of a place goes back over its siblings, past signs and other comments.

* `Passes`: siblings that the search goes past, `docAmong_append_of_passes`;
* `IsBefore`: a comment with only such siblings between it and a place, `docblockBefore_of_isBefore`;
* **`docblockBefore_of_blockComment`**: which block comments before a place document it, and with what text.
-/

namespace ComponentDocs

namespace SourceFile

variable {src : SourceFile} {comment : Node} {earlier : List Node} {c : Cursor} {body : List Char}

/-- The search for a documentation comment goes past the sibling: a comment of another kind, or a sign. -/
def Passes (src : SourceFile) (sibling : Node) : Prop :=
  if sibling.isComment then isDocComment (src.text sibling).toList = false else sibling.named = false

theorem docAmong_append_of_passes {passed : List Node} (h : ∀ sibling ∈ passed, src.Passes sibling) (rest : List Node) :
    src.docAmong (passed ++ rest) = src.docAmong rest := by
  induction passed with
  | nil => rfl
  | cons sibling passed ih =>
    obtain ⟨hsibling, hpassed⟩ := List.forall_mem_cons.mp h
    rw [List.cons_append, docAmong, ih hpassed]
    unfold Passes at hsibling
    split_ifs at hsibling ⊢ with hcomment <;> simp_all

/-- A comment stands before a place: in front of it are only siblings that the search goes past. The place is the first
one of its siblings with its bytes and its kind. -/
def IsBefore (src : SourceFile) (comment : Node) (earlier : List Node) (c : Cursor) : Prop :=
  comment.isComment = true ∧ ∃ parent between later, c.ancestors.head? = some parent ∧
    parent.children = earlier ++ comment :: (between ++ c.node :: later) ∧
    (∀ sibling ∈ earlier ++ comment :: between, sibling.same c.node = false) ∧
    ∀ sibling ∈ between, src.Passes sibling

theorem same_self (node : Node) : node.same node = true := by simp [Node.same]

theorem siblingsBefore_eq {node : Node} {before later : List Node}
    (h : ∀ sibling ∈ before, sibling.same node = false) :
    siblingsBefore node (before ++ node :: later) = before.reverse := by
  have hany : (before ++ node :: later).any (·.same node) = true :=
    List.any_eq_true.mpr ⟨node, by simp, same_self node⟩
  rw [siblingsBefore, if_pos hany, List.takeWhile_append_of_pos fun sibling hsibling => by rw [h sibling hsibling]; rfl,
    List.takeWhile_cons_of_neg (by simp [same_self]), List.append_nil]

theorem docblockBefore_of_isBefore (h : src.IsBefore comment earlier c) :
    src.docblockBefore c =
      if isDocComment (src.text comment).toList then some (docString (src.text comment))
      else src.docAmong earlier.reverse := by
  obtain ⟨hcomment, parent, between, later, hparent, hchildren, hfirst, hpassed⟩ := h
  have hsiblings : siblingsBefore c.node parent.children = between.reverse ++ comment :: earlier.reverse := by
    have hall : parent.children = (earlier ++ comment :: between) ++ c.node :: later := by rw [hchildren]; simp
    rw [hall, siblingsBefore_eq hfirst]
    simp
  rw [docblockBefore, hparent, docBetween, Option.bind_some, hsiblings,
    docAmong_append_of_passes fun sibling hsibling => hpassed sibling (List.mem_reverse.mp hsibling), docAmong,
    if_pos hcomment]

/-- **A block comment before a place documents it if and only if its text starts with a star**, and then the documentation
is what stands after that star, without the stars of the lines: nothing of the signs of the comment is left. Only
`/**/`, whose signs share the star, documents the place with a part of a sign. -/
theorem docblockBefore_of_blockComment (hbefore : src.IsBefore comment earlier c)
    (hcomment : (src.text comment).toList = blockComment body) (hclosed : ¬ ['*', '/'] <:+: body) :
    (∀ rest, body = '*' :: rest → ∃ text, src.docblockBefore c = some (String.ofList text) ∧
      WithoutStars rest text ∧ text.Sublist rest ∧ ¬ ['*', '/'] <:+: text) ∧
    (body ≠ [] → body.head? ≠ some '*' → src.docblockBefore c = src.docAmong earlier.reverse) ∧
    (body = [] → src.docblockBefore c = some "/") := by
  rw [docblockBefore_of_isBefore hbefore, docString, hcomment]
  refine ⟨?_, fun hne hhead => ?_, ?_⟩
  · rintro rest rfl
    rw [if_pos (isDocComment_blockComment_iff.mpr (.inl rfl))]
    have htext := withoutStars_docText rest
    refine ⟨_, rfl, htext, htext.sublist, fun hsign => hclosed ?_⟩
    exact (htext.isInfix (by decide) hsign).trans (List.suffix_cons '*' rest).isInfix
  · rw [if_neg fun hdoc => (isDocComment_blockComment_iff.mp hdoc).elim hhead hne]
  · rintro rfl
    rw [if_pos (isDocComment_blockComment_iff.mpr (.inr rfl))]
    decide

/-- A source with a block comment, a line comment and a name. -/
def commentedSource (body : List Char) : SourceFile :=
  let stop := body.length + 4
  .ofTree none (String.ofList (blockComment body ++ " // b\nx".toList)) .none
    (.mk "program" true false "" 0 (stop + 7)
      [.leaf "comment" true "" 0 stop, .leaf "comment" true "" (stop + 1) (stop + 5),
        .leaf "identifier" true "" (stop + 6) (stop + 7)])

/-- The place of the name. -/
def namePlace (body : List Char) : Cursor :=
  (commentedSource body).top.enter (.leaf "identifier" true "" (body.length + 10) (body.length + 11))

theorem isBefore_commentedSource {body : List Char}
    (h : isDocComment ((commentedSource body).text (.leaf "comment" true "" (body.length + 5) (body.length + 9))).toList =
      false) :
    (commentedSource body).IsBefore (.leaf "comment" true "" 0 (body.length + 4)) [] (namePlace body) := by
  refine ⟨rfl, (commentedSource body).root, [.leaf "comment" true "" (body.length + 5) (body.length + 9)], [], rfl, rfl,
    ?_, ?_⟩
  · simp [namePlace, Cursor.enter, Node.leaf, Node.same, Node.start]
  · rw [List.forall_mem_singleton]
    exact h

theorem docblockBefore_commentedSource :
    ((commentedSource ['*', 'A', ' ']).docblockBefore (namePlace ['*', 'A', ' ']) = some "A" ∧
      WithoutStars ['A', ' '] ['A']) ∧
    (commentedSource []).docblockBefore (namePlace []) = some "/" := by
  have hcomment : ((commentedSource ['*', 'A', ' ']).text (.leaf "comment" true "" 0 7)).toList =
      blockComment ['*', 'A', ' '] := by decide +kernel
  have hempty : ((commentedSource []).text (.leaf "comment" true "" 0 4)).toList = blockComment [] := by decide +kernel
  have hdoc : (commentedSource ['*', 'A', ' ']).docblockBefore (namePlace ['*', 'A', ' ']) =
      some (String.ofList ['A']) := by decide +kernel
  obtain ⟨text, htext, hwithout, -⟩ :=
    (docblockBefore_of_blockComment (isBefore_commentedSource (by decide +kernel)) hcomment (by decide)).1 _ rfl
  have hA : text = ['A'] := String.ofList_injective (Option.some.inj (htext.symm.trans hdoc))
  exact ⟨⟨hdoc, hA ▸ hwithout⟩,
    (docblockBefore_of_blockComment (isBefore_commentedSource (by decide +kernel)) hempty (by decide)).2.2 rfl⟩

end SourceFile

end ComponentDocs

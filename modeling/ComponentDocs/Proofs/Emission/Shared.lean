import ComponentDocs.Proofs.Emission.WellFormed
import ComponentDocs.Proofs.Text.Hex

/-!
# Seeds that files share

The identifier of a file stands in front of its seeds without an end of its own, so a seed may belong to two
files.

* `Continues`: the identifier of a file goes on as the seeds of another file do;
* `SeedBody`: what follows the identifier in a seed; `exists_body_of_mem_fileSeeds`: seeds have that form;
* **`continues_of_mem_fileSeeds`**: files that share a seed continue each other;
* **`exists_common_seed`**: files that continue each other may share a seed.
-/

namespace ComponentDocs

/-- The second identifier, with two dashes behind it, starts with the first and an index between dashes. -/
def Continues (a b : String) : Prop := ∃ index : ℕ, (a ++ "--" ++ toString index ++ "--").toList <+: (b ++ "--").toList

theorem Continues.isPrefix {a b : String} (h : Continues a b) : (a ++ "--").toList <+: (b ++ "--").toList := by
  obtain ⟨index, h⟩ := h
  rw [String.append_assoc] at h
  simp only [String.toList_append] at h ⊢
  exact (List.prefix_append _ _).trans h

/-! ## Digests -/

theorem dash_notMem_hex (bytes : List UInt8) : '-' ∉ Digest.hex bytes := fun h =>
  Digest.forall_mem_hex (P := (· ≠ '-')) (by decide) bytes '-' h rfl

/-! ## Bodies of seeds -/

/-- What follows the identifier of a file and two dashes: an index and two dashes, or a word and a digest. -/
def SeedBody (body : List Char) : Prop :=
  (∃ (index : ℕ) (rest : List Char), body = Nat.toDigits 10 index ++ ("--".toList ++ rest)) ∨
    ∃ digest : List Char, '-' ∉ digest ∧ body = "ComponentDescription--".toList ++ digest

theorem SeedBody.head_ne {body : List Char} (h : SeedBody body) : body.head? ≠ some '-' := by
  obtain ⟨index, rest, rfl⟩ | ⟨digest, -, rfl⟩ := h
  · cases hdigits : Nat.toDigits 10 index with
    | nil => exact absurd hdigits Nat.toDigits_ne_nil
    | cons c cs =>
      have hc : '-' ∉ c :: cs := hdigits ▸ notMem_toDigits (by decide) index
      simp only [List.cons_append, List.head?_cons, ne_eq, Option.some.injEq]
      exact fun heq => hc (heq ▸ List.mem_cons_self)
  · simp

theorem SeedBody.two_le_count {body : List Char} (h : SeedBody body) : 2 ≤ body.count '-' := by
  obtain ⟨index, rest, rfl⟩ | ⟨digest, -, rfl⟩ := h
  · have : "--".toList.count '-' = 2 := by decide
    simp only [List.count_append]
    omega
  · have : "ComponentDescription--".toList.count '-' = 2 := by decide
    simp only [List.count_append]
    omega

theorem exists_body_of_mem_componentSeeds {file seed : String} {component : Record × ℕ}
    (h : seed ∈ componentSeeds file component) : ∃ rest : List Char,
      seed.toList = (file ++ "--").toList ++ (Nat.toDigits 10 component.2 ++ ("--".toList ++ rest)) := by
  have hseed : ∀ more : String, (seedAt file component ++ more).toList = (file ++ "--").toList ++
      (Nat.toDigits 10 component.2 ++ ("--".toList ++
        ((Record.get component.1 "displayName").display ++ "--ComponentMetadata" ++ more).toList)) := by
    intro more
    simp [seedAt, componentSeed, String.toList_append, Nat.toString_eq_repr, Nat.toList_repr]
  rcases List.mem_cons.mp h with rfl | h
  · exact ⟨_, by simpa using hseed ""⟩
  · obtain ⟨prop, -, rfl⟩ := List.mem_map.mp h
    exact ⟨_, (congrArg String.toList (String.append_assoc ..)).trans (hseed _)⟩

theorem exists_body_of_mem_fileSeeds {file seed : String} {components : List Record}
    (h : seed ∈ fileSeeds file components) :
    ∃ body, SeedBody body ∧ seed.toList = (file ++ "--").toList ++ body := by
  rcases List.mem_append.mp h with h | h
  · obtain ⟨c, -, hc⟩ := List.mem_flatMap.mp h
    obtain ⟨rest, hrest⟩ := exists_body_of_mem_componentSeeds hc
    exact ⟨_, Or.inl ⟨c.2, rest, rfl⟩, hrest⟩
  · obtain ⟨text, -, rfl⟩ := List.mem_map.mp h
    refine ⟨"ComponentDescription--".toList ++ (contentDigest (.str text)).toList, Or.inr ⟨_, ?_, rfl⟩, ?_⟩
    · rw [contentDigest, String.toList_ofList]
      exact dash_notMem_hex _
    · simp [descriptionSeed, String.toList_append]

/-! ## Common seeds -/

/-- A body that is cut at two dashes is cut behind its index. -/
theorem SeedBody.prefix_of_eq {body name rest : List Char} (hbody : SeedBody body) (hrest : SeedBody rest)
    (h : body = name ++ ("--".toList ++ rest)) :
    ∃ index : ℕ, Nat.toDigits 10 index ++ "--".toList <+: name ++ "--".toList := by
  obtain ⟨index, more, rfl⟩ | ⟨digest, hdigest, rfl⟩ := hbody
  · refine ⟨index, ?_⟩
    rcases List.append_eq_append_iff.mp h with ⟨cut, rfl, hcut⟩ | ⟨cut, hdigits, hcut⟩
    · rw [List.append_assoc, List.prefix_append_right_inj]
      have hleft : "--".toList <+: "--".toList ++ more := List.prefix_append ..
      have hright : cut ++ "--".toList <+: "--".toList ++ more := by
        rw [hcut, ← List.append_assoc]
        exact List.prefix_append ..
      apply List.prefix_of_prefix_length_le hleft hright
      simp
    · -- the index has no dash, so it is not cut
      cases cut with
      | nil =>
        rw [List.append_nil] at hdigits
        exact hdigits ▸ List.prefix_refl _
      | cons c cut =>
        have hc : c = '-' := by
          have := congrArg List.head? hcut
          simpa using this.symm
        have hmem : '-' ∈ Nat.toDigits 10 index := by
          rw [hdigits, hc]
          simp
        exact absurd hmem (notMem_toDigits (by decide) index)
  · -- the body of a description has two dashes, but four are needed
    have hcount := congrArg (List.count '-') h
    have hword : "ComponentDescription--".toList.count '-' = 2 := by decide
    have hdashes : "--".toList.count '-' = 2 := by decide
    have hnone : digest.count '-' = 0 := List.count_eq_zero.mpr hdigest
    have htwo := hrest.two_le_count
    simp only [List.count_append] at hcount
    omega

theorem continues_of_append {a b : String} {more body rest : List Char} (hb : b.toList = a.toList ++ more)
    (hne : a ≠ b) (hbody : SeedBody body) (hrest : SeedBody rest)
    (h : "--".toList ++ body = more ++ ("--".toList ++ rest)) : Continues a b := by
  match more, h with
  | [], _ => exact absurd (String.toList_injective (by simpa using hb.symm)) hne
  | [c], h =>
    have hdash : body = '-' :: rest := (List.cons.inj (List.cons.inj h).2).2
    exact absurd (by rw [hdash]; rfl) hbody.head_ne
  | c :: d :: name, h =>
    have hc : '-' = c := (List.cons.inj h).1
    have hd : '-' = d := (List.cons.inj (List.cons.inj h).2).1
    have hname : body = name ++ ("--".toList ++ rest) := (List.cons.inj (List.cons.inj h).2).2
    obtain ⟨index, hindex⟩ := hbody.prefix_of_eq hrest hname
    refine ⟨index, ?_⟩
    have hleft : (a ++ "--" ++ toString index ++ "--").toList =
        (a ++ "--").toList ++ (Nat.toDigits 10 index ++ "--".toList) := by
      simp [String.toList_append, Nat.toString_eq_repr, Nat.toList_repr]
    have hright : (b ++ "--").toList = (a ++ "--").toList ++ (name ++ "--".toList) := by
      simp [String.toList_append, hb, ← hc, ← hd]
    rw [hleft, hright, List.prefix_append_right_inj]
    exact hindex

/-- **Files that share a seed continue each other.** -/
theorem continues_of_mem_fileSeeds {a b seed : String} {cs ds : List Record} (ha : seed ∈ fileSeeds a cs)
    (hb : seed ∈ fileSeeds b ds) (hne : a ≠ b) : Continues a b ∨ Continues b a := by
  obtain ⟨body, hbody, heq⟩ := exists_body_of_mem_fileSeeds ha
  obtain ⟨rest, hrest, heq'⟩ := exists_body_of_mem_fileSeeds hb
  rw [heq, String.toList_append, String.toList_append, List.append_assoc, List.append_assoc] at heq'
  rcases List.append_eq_append_iff.mp heq' with ⟨more, hmore, h⟩ | ⟨more, hmore, h⟩
  · exact Or.inl (continues_of_append hmore hne hbody hrest h)
  · exact Or.inr (continues_of_append hmore hne.symm hrest hbody h)

/-! ## Files that continue each other -/

/-- A component with nothing but a name. -/
def namedComponent (name : String) : Record := [("displayName", .str name)]

theorem mem_fileSeeds_namedComponent (file name : String) (count : ℕ) :
    file ++ "--" ++ toString count ++ "--" ++ name ++ "--ComponentMetadata" ∈
      fileSeeds file (List.replicate (count + 1) (namedComponent name)) := by
  have hmem : (namedComponent name, count) ∈ (List.replicate (count + 1) (namedComponent name)).zipIdx := by
    rw [List.mem_zipIdx_iff_getElem?]
    simp
  exact List.mem_append_left _ (List.mem_flatMap.mpr ⟨_, hmem, List.mem_cons_self⟩)

/-- **Files that continue each other may share a seed.** -/
theorem exists_common_seed {a b : String} (h : Continues a b) : ∃ (index : ℕ) (name : String),
    ∃ seed ∈ fileSeeds a (List.replicate (index + 1) (namedComponent name)),
      seed ∈ fileSeeds b [namedComponent "X"] := by
  obtain ⟨index, more, hmore⟩ := h
  refine ⟨index, String.ofList more ++ "0--X", _, mem_fileSeeds_namedComponent a _ index, ?_⟩
  have hseed := mem_fileSeeds_namedComponent b "X" 0
  have heq : a ++ "--" ++ toString index ++ "--" ++ (String.ofList more ++ "0--X") ++ "--ComponentMetadata" =
      b ++ "--" ++ toString 0 ++ "--" ++ "X" ++ "--ComponentMetadata" := by
    apply String.toList_injective
    rw [← String.append_assoc, String.toList_append, String.toList_append, String.toList_append,
      String.toList_ofList, hmore]
    simp [String.toList_append]
  rw [heq]
  exact hseed

end ComponentDocs

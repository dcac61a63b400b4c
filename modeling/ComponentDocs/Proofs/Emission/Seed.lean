import ComponentDocs.Proofs.Emission.File
import ComponentDocs.Proofs.Lists

/-!
# Seeds of a file

The nodes of a file have different seeds.

* `HasIndex`: the seed of an entity of the component at an index; `HasIndex.inj`: the index is determined;
* `PropsDistinct`: the props of a component have names, which are different;
* `entitySeeds`, `descriptionSeeds`: the seeds of a file; **`nodup_fileSeeds`**: they are different.
-/

namespace ComponentDocs

variable {file seed : String} {index : ℕ}

/-! ## Indices -/

/-- The seed starts with the file and an index. -/
def HasIndex (file : String) (index : ℕ) (seed : String) : Prop :=
  ∃ rest, seed.toList = file.toList ++ '-' :: '-' :: (Nat.toDigits 10 index ++ '-' :: rest)

theorem hasIndex_seedAt (component : Record × ℕ) : HasIndex file component.2 (seedAt file component) := by
  refine ⟨'-' :: ((Record.get component.1 "displayName").display.toList ++ "--ComponentMetadata".toList), ?_⟩
  simp [seedAt, componentSeed, String.toList_append, Nat.toString_eq_repr, Nat.toList_repr]

theorem HasIndex.propSeed (h : HasIndex file index seed) (name : Json) :
    HasIndex file index (propSeed seed name) := by
  obtain ⟨rest, hrest⟩ := h
  refine ⟨rest ++ ("--ComponentProp-".toList ++ name.display.toList), ?_⟩
  simp [ComponentDocs.propSeed, String.toList_append, hrest]

theorem HasIndex.inj (h : HasIndex file index seed) {other : ℕ} (hother : HasIndex file other seed) :
    index = other := by
  obtain ⟨rest, hrest⟩ := h
  obtain ⟨more, hmore⟩ := hother
  rw [hrest, List.append_cancel_left_eq, List.cons.injEq, List.cons.injEq] at hmore
  have htake := congrArg (List.takeWhile (· != '-')) hmore.2.2
  have hdash (n : ℕ) : ∀ c ∈ Nat.toDigits 10 n, (c != '-') = true := fun c hc =>
    bne_iff_ne.mpr (ne_of_mem_of_not_mem hc (notMem_toDigits (by decide) n))
  rw [List.takeWhile_append_of_pos (hdash index), List.takeWhile_append_of_pos (hdash other)] at htake
  have hdigits : Nat.toDigits 10 index = Nat.toDigits 10 other := by simpa using htake
  have hvalue := congrArg (fun digits => Nat.ofDigitChars 10 digits 0) hdigits
  simpa only [Nat.ofDigitChars_ten_toDigits] using hvalue

/-- No entity has the seed of a description. -/
theorem HasIndex.ne_descriptionSeed (h : HasIndex file index seed) (digest : String) :
    seed ≠ descriptionSeed file digest := by
  obtain ⟨rest, hrest⟩ := h
  have hword : "--ComponentDescription--".toList = '-' :: '-' :: 'C' :: "omponentDescription--".toList := rfl
  intro heq
  rw [heq, descriptionSeed, String.toList_append, String.toList_append, List.append_assoc,
    List.append_cancel_left_eq, hword] at hrest
  cases hdigits : Nat.toDigits 10 index with
  | nil => exact Nat.toDigits_ne_nil hdigits
  | cons c cs =>
    have hhead : 'C' = c := by
      rw [hdigits] at hrest
      exact (List.cons.inj (List.cons.inj (List.cons.inj hrest).2).2).1
    refine notMem_toDigits (by decide : 'C'.isDigit = false) index ?_
    rw [hdigits, hhead]
    exact List.mem_cons_self

/-! ## Names and texts -/

theorem propSeed_ne (seed : String) (name : Json) : seed ≠ propSeed seed name := by
  intro heq
  have hlength := congrArg String.length heq
  rw [propSeed, String.length_append, String.length_append] at hlength
  have hpart : "--ComponentProp-".length = 16 := rfl
  omega

theorem display_eq_of_propSeed_eq {a b : Json} (h : propSeed seed a = propSeed seed b) :
    a.display = b.display :=
  (String.append_right_inj _).mp h

theorem digest_eq_of_descriptionSeed_eq {a b : String} (h : descriptionSeed file a = descriptionSeed file b) :
    a = b := (String.append_right_inj _).mp h

/-! ## All seeds -/

/-- The props of a component have names, which are different. -/
def PropsDistinct (component : Record) : Prop :=
  PropsNamed component ∧ ((propsOf component).map fun prop => (Record.get prop "name").display).Nodup

/-- The seeds of the component at an index and of its props. -/
def componentSeeds (file : String) (component : Record × ℕ) : List String :=
  seedAt file component :: (propsOf component.1).map fun prop =>
    propSeed (seedAt file component) (Record.get prop "name")

/-- The seeds of the components and props of a file. -/
def entitySeeds (file : String) (components : List Record) : List String :=
  components.zipIdx.flatMap (componentSeeds file)

theorem hasIndex_of_mem_componentSeeds {component : Record × ℕ} (h : seed ∈ componentSeeds file component) :
    HasIndex file component.2 seed := by
  rcases List.mem_cons.mp h with rfl | h
  · exact hasIndex_seedAt component
  · obtain ⟨prop, -, rfl⟩ := List.mem_map.mp h
    exact (hasIndex_seedAt component).propSeed _

theorem nodup_componentSeeds {component : Record × ℕ} (h : PropsDistinct component.1) :
    (componentSeeds file component).Nodup := by
  refine List.nodup_cons.mpr ⟨fun hmem => ?_, ?_⟩
  · obtain ⟨prop, -, heq⟩ := List.mem_map.mp hmem
    exact propSeed_ne _ _ heq.symm
  · have hnames := h.2
    rw [List.Nodup, List.pairwise_map] at hnames ⊢
    exact hnames.imp fun hne heq => hne (display_eq_of_propSeed_eq heq)

theorem nodup_zipIdx_snd (components : List Record) : (components.zipIdx.map Prod.snd).Nodup := by
  rw [List.zipIdx_map_snd]
  exact List.nodup_range'

theorem nodup_entitySeeds {components : List Record} (h : ∀ component ∈ components, PropsDistinct component) :
    (entitySeeds file components).Nodup := by
  refine List.nodup_flatMap.mpr ⟨fun c hc => nodup_componentSeeds (h c.1 (List.fst_mem_of_mem_zipIdx hc)), ?_⟩
  have hindex := nodup_zipIdx_snd components
  rw [List.Nodup, List.pairwise_map] at hindex
  refine hindex.imp fun hne => ?_
  intro seed ha hb
  exact hne ((hasIndex_of_mem_componentSeeds ha).inj (hasIndex_of_mem_componentSeeds hb))

/-- The seeds of the descriptions with some texts. -/
def descriptionSeeds (file : String) (texts : List String) : List String :=
  texts.map fun text => descriptionSeed file (contentDigest (.str text))

/-- **The seeds of a file are different**, if the texts have different digests. -/
theorem nodup_fileSeeds {components : List Record} (h : ∀ component ∈ components, PropsDistinct component)
    {texts : List String} (htexts : texts.Nodup)
    (hdigest : ∀ a ∈ texts, ∀ b ∈ texts, contentDigest (.str a) = contentDigest (.str b) → a = b) :
    (entitySeeds file components ++ descriptionSeeds file texts).Nodup := by
  refine List.nodup_append.mpr ⟨nodup_entitySeeds h, ?_, ?_⟩
  · exact htexts.map_on fun a ha b hb heq => hdigest a ha b hb (digest_eq_of_descriptionSeed_eq heq)
  · intro a ha b hb heq
    obtain ⟨c, -, hc⟩ := List.mem_flatMap.mp ha
    obtain ⟨text, -, rfl⟩ := List.mem_map.mp hb
    exact (hasIndex_of_mem_componentSeeds hc).ne_descriptionSeed _ heq

end ComponentDocs

import ComponentDocs.Batch.Rebuild
import ComponentDocs.Proofs.Path.Absolute

/-!
# Paths of sources and component files

Where a source file lies below the root, the file of its components lies below the output folder, under the same
names with an ending put to the last one.

* `componentPlace`: the names that lead to the file of the components;
* `outputPath_source`: it is what the path for writing says;
* `sourceOf_componentPlace`: the path of the source is read off it;
* `fileRecord_source`: that path has the record of the source.
-/

namespace ComponentDocs

/-! ## Places as paths -/

/-- Every name of a place leads down. -/
def PlainNames (place : Location) : Prop := ∀ name ∈ place, Path.IsPlain name.toList

/-- The path of a place, seen from where its names start. -/
def pathText (place : Location) : String := String.intercalate "/" place

theorem toList_pathText (place : Location) : (pathText place).toList = Text.join ['/'] (place.map String.toList) := by
  rw [pathText, String.toList_intercalate, Text.join_eq_intercalate]
  rfl

theorem pathText_eq_ofList (place : Location) :
    pathText place = String.ofList (Text.join ['/'] (place.map String.toList)) := by
  rw [← toList_pathText, String.ofList_toList]

variable {place other : Location}

theorem PlainNames.isName (h : PlainNames place) : ∀ name ∈ place.map String.toList, Path.IsName name := by
  intro name hname
  obtain ⟨text, htext, rfl⟩ := List.mem_map.mp hname
  exact (h text htext).isName

theorem segments_pathText (h : PlainNames place) : Path.segments (pathText place) = place.map String.toList := by
  have hsegments := Path.segments_ofList_join (fun c (hc : c ∈ ([] : List Char)) => absurd hc List.not_mem_nil) h.isName
  rwa [List.nil_append, ← pathText_eq_ofList] at hsegments

theorem names_pathText (h : PlainNames place) : Path.names (pathText place) = place := by
  rw [Path.names, segments_pathText h, List.map_map]
  simp

theorem pathText_inj (hplace : PlainNames place) (hother : PlainNames other) (h : pathText place = pathText other) :
    place = other := by
  rw [← names_pathText hplace, h, names_pathText hother]

theorem isAbsolute_pathText (h : PlainNames place) : Path.isAbsolute (pathText place) = false := by
  have hhead := Path.head_join_ne_slash h.isName
  rw [Path.isAbsolute, toList_pathText]
  cases hlist : Text.join ['/'] (place.map String.toList) with
  | nil => rfl
  | cons c cs =>
    have hc : c ≠ '/' := fun hc => hhead cs (by rw [hlist, hc])
    simpa using hc

/-! ## Component files -/

/-- The names that lead to the file of the components of a source. -/
def componentPlace : Location → Location
  | [] => []
  | [name] => [name ++ ".json"]
  | name :: rest => name :: componentPlace rest

theorem componentPlace_cons {name : String} {rest : Location} (h : rest ≠ []) :
    componentPlace (name :: rest) = name :: componentPlace rest := by
  cases rest with
  | nil => exact absurd rfl h
  | cons next rest => rfl

theorem componentPlace_ne_nil (h : place ≠ []) : componentPlace place ≠ [] := by
  rcases place with _ | ⟨name, _ | ⟨next, rest⟩⟩ <;> simp_all [componentPlace]

theorem pathText_cons {name : String} {rest : Location} (h : rest ≠ []) :
    pathText (name :: rest) = name ++ "/" ++ pathText rest := by
  cases rest with
  | nil => exact absurd rfl h
  | cons next rest => exact String.intercalate_cons_cons

theorem pathText_componentPlace (h : place ≠ []) : pathText (componentPlace place) = pathText place ++ ".json" := by
  induction place with
  | nil => exact absurd rfl h
  | cons name rest ih =>
    by_cases hrest : rest = []
    · simp [hrest, componentPlace, pathText]
    · rw [componentPlace_cons hrest, pathText_cons (componentPlace_ne_nil hrest), ih hrest, pathText_cons hrest]
      simp only [String.append_assoc]

theorem isPlain_append_json {name : String} (h : Path.IsPlain name.toList) : Path.IsPlain (name ++ ".json").toList := by
  have hlist : (name ++ ".json").toList = name.toList ++ ['.', 'j', 's', 'o', 'n'] := String.toList_append
  have hlong : ∀ cs : List Char, cs.length < 5 → (name ++ ".json").toList ≠ cs := by
    rintro cs hcs heq
    rw [← heq, hlist, List.length_append] at hcs
    simp only [List.length_cons, List.length_nil] at hcs
    omega
  refine ⟨⟨hlong [] (by decide), ?_⟩, hlong _ (by decide), hlong _ (by decide)⟩
  rw [hlist, List.mem_append, not_or]
  exact ⟨h.isName.2, by decide⟩

theorem plainNames_componentPlace (h : PlainNames place) : PlainNames (componentPlace place) := by
  induction place with
  | nil => exact h
  | cons name rest ih =>
    have hname := h name List.mem_cons_self
    by_cases hrest : rest = []
    · intro other hother
      simp only [hrest, componentPlace, List.mem_singleton] at hother
      exact hother ▸ isPlain_append_json hname
    · rw [componentPlace_cons hrest]
      intro other hother
      rcases List.mem_cons.mp hother with rfl | hother
      · exact hname
      · exact ih (fun name hname => h name (List.mem_cons_of_mem _ hname)) other hother

theorem componentPlace_inj (hplace : PlainNames place) (hother : PlainNames other) (hne : place ≠ [])
    (hne' : other ≠ []) (h : componentPlace place = componentPlace other) : place = other := by
  have htexts := congrArg pathText h
  rw [pathText_componentPlace hne, pathText_componentPlace hne', String.append_left_inj] at htexts
  exact pathText_inj hplace hother htexts

theorem isSuffixOf_getLast_componentPlace (h : place ≠ []) :
    componentEnding.isSuffixOf ((componentPlace place).getLast?.getD "").toList = true := by
  induction place with
  | nil => exact absurd rfl h
  | cons name rest ih =>
    by_cases hrest : rest = []
    · simp [hrest, componentPlace, componentEnding]
    · obtain ⟨next, more, hmore⟩ := List.exists_cons_of_ne_nil (componentPlace_ne_nil hrest)
      rw [componentPlace_cons hrest, hmore, List.getLast?_cons_cons, ← hmore]
      exact ih hrest

/-! ## From sources to component files and back -/

section

variable {folder root : String} (hfolder : Path.isAbsolute folder = true) (hroot : root ≠ "")
  (hne : place ≠ []) (hplain : PlainNames place)

include hfolder hroot hplain

theorem absoluteNames_source : Path.absoluteNames folder (Path.inFolder (Path.tidy root) (pathText place)) =
    Path.absoluteNames folder root ++ place.map String.toList := by
  have hrel := isAbsolute_pathText hplain
  have hsegments := segments_pathText hplain
  rw [← Path.segments_absolute hfolder, Path.absolute_inFolder_tidy hroot hrel hfolder, Path.segments_absolute hfolder,
    Path.absoluteNames_join hroot hrel, hsegments]
  intro name hname
  rw [hsegments] at hname
  obtain ⟨text, htext, rfl⟩ := List.mem_map.mp hname
  exact hplain text htext

include hne

/-- Seen from the root, a source is at its place. -/
theorem relative_source :
    Path.relative folder (Path.inFolder (Path.tidy root) (pathText place)) (Path.tidy root) = pathText place := by
  have hnames : place.map String.toList ≠ [] := by simpa using hne
  rw [Path.relative_eq hfolder hnames, pathText_eq_ofList]
  rw [absoluteNames_source hfolder hroot hplain, Path.absoluteNames_tidy]

theorem outputPath_source (outputBase : String) :
    outputPath folder (Path.tidy root) outputBase (Path.inFolder (Path.tidy root) (pathText place)) =
      Path.join outputBase (pathText (componentPlace place)) := by
  rw [outputPath, relative_source hfolder hroot hne hplain, pathText_componentPlace hne]

omit hfolder hroot hplain in
/-- The path of a source is read off its component file. -/
theorem sourceOf_componentPlace (root : String) :
    sourceOf (some root) (pathText (componentPlace place)) = Path.join root (pathText place) := by
  have hlist : (pathText place ++ ".json").toList = (pathText place).toList ++ componentEnding := String.toList_append
  unfold sourceOf
  dsimp only
  rw [pathText_componentPlace hne, hlist, List.length_append, Nat.add_sub_cancel, List.take_left, String.ofList_toList]

omit hne in
theorem fileRecord_source (shown : Option String) :
    fileRecord folder shown (Path.inFolder (Path.tidy root) (pathText place)) =
      fileRecord folder shown (Path.join root (pathText place)) := by
  unfold fileRecord
  rw [Path.absolute_inFolder_tidy hroot (isAbsolute_pathText hplain) hfolder]

end

end ComponentDocs

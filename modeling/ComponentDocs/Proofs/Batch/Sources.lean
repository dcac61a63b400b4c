import ComponentDocs.Batch.Sources
import ComponentDocs.Proofs.Batch.Paths
import ComponentDocs.Proofs.Workspace.Changes
import Mathlib.Data.List.TakeWhile

/-!
# Source files of a folder

* `Workspace.Proper`: a tree in which every folder names its entries once, and with plain names;
* `SourcePath.Below`: a source file with the names that lead to it from the root;
* `sourceFiles_ok`: the source files of a folder are such files, each at a place of its own;
* `SourcePath.Below.dot_mem_shown`: the path that is shown for a source file has a dot.
-/

namespace ComponentDocs

/-- Every folder names its entries once, and with plain names. -/
structure Workspace.Proper (w : Workspace) : Prop where
  distinct : w.top.Distinct
  plain : w.top.Each fun names => ∀ name ∈ names, Path.IsPlain name.toList

namespace SourcePath

/-- The names that lead to the file from the root. -/
def place (source : SourcePath) : Location := Path.names source.relative

/-- The file lies below the root. -/
structure Below (root : String) (source : SourcePath) : Prop where
  ne_nil : source.place ≠ []
  plain : PlainNames source.place
  path : source.path = Path.inFolder (Path.tidy root) (pathText source.place)
  dot : '.' ∈ (pathText source.place).toList

end SourcePath

/-! ## Extensions -/

theorem dot_mem_of_languageOf? {name language : String} (h : languageOf? name = some language) : '.' ∈ name.toList := by
  by_contra hdot
  have htake : name.toList.reverse.takeWhile (· ≠ '.') = name.toList.reverse := by
    rw [List.takeWhile_eq_self_iff]
    intro c hc
    have hne : c ≠ '.' := by
      rintro rfl
      exact hdot (List.mem_reverse.mp hc)
    simpa using hne
  have hnone : nameExtension name = "" := by
    unfold nameExtension
    simp only [htake, List.drop_length]
    split
    · rename_i h
      cases h
    · rfl
  have hfind : languageExtensions.find? (fun language => language.2.contains "") = none := by decide
  rw [languageOf?, hnone, hfind] at h
  exact absurd h (by simp)

theorem mem_join_of_mem {separator piece : List Char} {pieces : List (List Char)} {c : Char} (hpiece : piece ∈ pieces)
    (hc : c ∈ piece) : c ∈ Text.join separator pieces := by
  fun_induction Text.join separator pieces with
  | case1 => exact absurd hpiece List.not_mem_nil
  | case2 only => exact List.mem_singleton.mp hpiece ▸ hc
  | case3 first rest hrest ih =>
    rcases List.mem_cons.mp hpiece with rfl | hpiece
    · exact List.mem_append_left _ (List.mem_append_left _ hc)
    · exact List.mem_append_right _ (ih hpiece)

/-! ## The files of a folder -/

theorem below_of_sourcePath? {rules : List IgnoreRule} {root : String} {place : Location} {source : SourcePath}
    (hne : place ≠ []) (hplain : PlainNames place) (h : sourcePath? rules (Path.tidy root) place = some source) :
    source.place = place ∧ source.Below root := by
  unfold sourcePath? at h
  simp only [Option.bind_eq_bind, Option.bind_eq_some_iff] at h
  obtain ⟨language, hlanguage, h⟩ := h
  split_ifs at h
  have hsource := (Option.some.inj h).symm
  have hplace : source.place = place := by
    rw [hsource]
    exact names_pathText hplain
  have hlast : place.getLast?.getD "" ∈ place := by
    rw [List.getLast?_eq_some_getLast hne, Option.getD_some]
    exact List.getLast_mem hne
  refine ⟨hplace, ?_⟩
  constructor
  · rwa [hplace]
  · rwa [hplace]
  · rw [hplace, hsource]
    rfl
  · rw [hplace, toList_pathText]
    exact mem_join_of_mem (List.mem_map_of_mem hlast) (dot_mem_of_languageOf? hlanguage)

/-- The source files of a folder, each at a place of its own. -/
theorem sourceFiles_ok {w : Workspace} (hproper : w.Proper) {root : String} {sources : List SourcePath}
    (h : sourceFiles w root = .ok sources) :
    (∀ source ∈ sources, source.Below root) ∧ (sources.map SourcePath.place).Nodup := by
  obtain ⟨rules, -, h⟩ := bind_eq_ok_iff.mp h
  cases h
  generalize hplaces : ((w.filesBelow (Path.tidy root)).map (·.1)).mergeSort namesBefore = places
  have hperm : places.Perm ((w.filesBelow (Path.tidy root)).map (·.1)) := hplaces ▸ List.mergeSort_perm _ _
  have hspec : ∀ place ∈ places, ∀ source, sourcePath? rules (Path.tidy root) place = some source →
      source.place = place ∧ source.Below root := by
    intro place hplace source hsource
    obtain ⟨file, hfile, rfl⟩ := List.mem_map.mp (hperm.mem_iff.mp hplace)
    obtain ⟨hne, hplain⟩ := Workspace.plain_of_mem_filesBelow hproper.distinct hproper.plain hfile
    exact below_of_sourcePath? hne hplain hsource
  have hnodup : places.Nodup := hperm.nodup_iff.mpr (Workspace.nodup_filesBelow hproper.distinct _)
  constructor
  · intro source hsource
    obtain ⟨place, hplace, hfound⟩ := List.mem_filterMap.mp hsource
    exact (hspec place hplace source hfound).2
  · refine hnodup.sublist ?_
    clear hplaces hperm hnodup
    induction places with
    | nil => exact List.Sublist.refl _
    | cons place places ih =>
      have hrest := ih fun other hother => hspec other (List.mem_cons_of_mem _ hother)
      rw [List.filterMap_cons]
      cases hfound : sourcePath? rules (Path.tidy root) place with
      | none => exact hrest.cons _
      | some source =>
        rw [List.map_cons, (hspec place List.mem_cons_self source hfound).1]
        exact hrest.cons_cons _

/-! ## Shown paths -/

theorem mem_join_path {base path : String} {c : Char} (h : c ∈ path.toList) : c ∈ (Path.join base path).toList := by
  unfold Path.join
  split_ifs
  · exact h
  · rw [String.toList_append]
    exact List.mem_append_right _ h
  · rw [String.toList_append]
    exact List.mem_append_right _ h

theorem SourcePath.Below.dot_mem_shown {folder root : String} {source : SourcePath} (h : source.Below root)
    (hfolder : Path.isAbsolute folder = true) (hroot : root ≠ "") :
    '.' ∈ ((Record.get (fileRecord folder (some root) source.path) "id").display).toList := by
  have hnames : Path.absoluteNames folder (Path.absolute folder source.path) =
      Path.absoluteNames folder root ++ source.place.map String.toList := by
    rw [Path.absoluteNames_absolute hfolder, h.path, absoluteNames_source hfolder hroot h.plain]
  have hrelative : Path.relative folder (Path.absolute folder source.path) root = pathText source.place := by
    rw [Path.relative_eq hfolder (by simpa using h.ne_nil) hnames, pathText_eq_ofList]
  have hshown : (Record.get (fileRecord folder (some root) source.path) "id").display =
      Path.forwardSlashes (Path.join (Path.baseName (Path.normalize root)) (pathText source.place)) := by
    have hid : (Record.get (fileRecord folder (some root) source.path) "id").display =
        repositoryPath folder (some root) (Path.absolute folder source.path) := rfl
    have hfilled : (some root).bind Method.nonEmpty? = some root := by simp [Method.nonEmpty?, hroot]
    rw [hid, repositoryPath, hfilled]
    dsimp only
    rw [hrelative]
  rw [hshown, Path.forwardSlashes, String.toList_ofList]
  exact List.mem_map.mpr ⟨'.', mem_join_path h.dot, by decide⟩

end ComponentDocs

import ComponentDocs.Proofs.Batch.Sources
import ComponentDocs.Proofs.Batch.Steps

/-!
# The output folder

* `Workspace.placeOf_join`: where a path below another one leads;
* `Stores`: the component files below a folder;
* `Stores.putComponent`, `Stores.putOther`: one more component file, and a file of another kind;
* `SourceRun`: what processing some sources leaves; **`exec_sources`**: processing never stops, and every source that
  does not fail stores its components.
-/

namespace ComponentDocs

/-! ## Paths below a folder -/

namespace Workspace

theorem foldl_follow {place : Location} (h : PlainNames place) (start : Location) :
    place.foldl follow start = start ++ place := by
  induction place generalizing start with
  | nil => simp
  | cons name place ih =>
    have hname := h name List.mem_cons_self
    have hhere : name ≠ "." := by
      rintro rfl
      exact hname.ne_here rfl
    have habove : name ≠ ".." := by
      rintro rfl
      exact hname.ne_above rfl
    rw [List.foldl_cons, follow, if_neg hhere, if_neg habove, ih fun other hother => h other (List.mem_cons_of_mem _ hother)]
    simp

theorem placeOf_join (w : Workspace) {base : String} (hbase : base ≠ "") {place : Location} (h : PlainNames place) :
    w.placeOf (Path.join base (pathText place)) = w.placeOf base ++ place := by
  have hrel := isAbsolute_pathText h
  have hnames : Path.names (Path.join base (pathText place)) = Path.names base ++ place := by
    rw [Path.names, Path.segments_join base hrel, List.map_append, ← Path.names, ← Path.names, names_pathText h]
  have hstart : w.startOf (Path.join base (pathText place)) = w.startOf base := by
    rw [startOf, startOf, Path.isAbsolute_join hbase hrel]
  rw [placeOf, placeOf, hnames, hstart, List.foldl_append, foldl_follow h]

theorem isAbsolute_folder (w : Workspace) : Path.isAbsolute w.folder = true := by
  have hslash : ("/" : String).toList = ['/'] := rfl
  simp [folder, Path.isAbsolute, String.toList_append, hslash]

theorem Extends.folder_eq {before after : Workspace} (h : Extends before after) : after.folder = before.folder := by
  rw [Workspace.folder, Workspace.folder, h.here]

theorem Extends.hasFolder {before after : Workspace} (h : Extends before after) {path : String}
    (hfolder : before.hasFolder path = true) : after.hasFolder path = true := by
  obtain ⟨hempty, hreach, hlabel⟩ := hasFolder_iff.mp hfolder
  exact hasFolder_iff.mpr ⟨hempty, h.reaches hreach, by rw [h.placeOf_eq]; exact h.folder _ hlabel⟩

end Workspace

open Workspace

/-! ## Component files -/

/-- The last name of the place has the ending of component files. -/
def isComponent (place : Location) : Bool := componentEnding.isSuffixOf (place.getLast?.getD "").toList

/-- The component files below a folder are these. -/
structure Stores (w : Workspace) (outputBase : String) (files : List (Location × FileContent)) : Prop where
  distinct : w.top.Distinct
  folder : w.hasFolder outputBase = true
  mem_iff : ∀ place content, isComponent place = true →
    (w.top.file? (w.placeOf outputBase ++ place) = some content ↔ (place, content) ∈ files)

namespace Stores

variable {w after : Workspace} {outputBase : String} {files : List (Location × FileContent)} {place : Location}
  {content : FileContent}

theorem addsFolders (h : Stores w outputBase files) (hadds : AddsFolders w after) : Stores after outputBase files := by
  refine ⟨hadds.distinct h.distinct, hadds.extends_before.hasFolder h.folder, fun place content hplace => ?_⟩
  rw [hadds.extends_before.placeOf_eq, hadds.files]
  exact h.mem_iff place content hplace

theorem base_ne (h : Stores w outputBase files) : outputBase ≠ "" := (hasFolder_iff.mp h.folder).1

theorem putComponent (h : Stores w outputBase files) (hplain : PlainNames place)
    (hnew : place ∉ files.map (·.1))
    (hput : w.putFile (Path.join outputBase (pathText place)) content = .ok after) :
    Stores after outputBase (files ++ [(place, content)]) := by
  obtain ⟨hextends, hdistinct, hfile⟩ := putFile_ok hput
  refine ⟨hdistinct h.distinct, hextends.hasFolder h.folder, fun other found hother => ?_⟩
  rw [hextends.placeOf_eq, hfile, placeOf_join w h.base_ne hplain, List.mem_append, List.mem_singleton,
    Prod.mk.injEq]
  by_cases hsame : other = place
  · subst hsame
    rw [if_pos rfl]
    have hnone : (other, found) ∉ files := fun hmem => hnew (List.mem_map_of_mem (f := (·.1)) hmem)
    simp [hnone, eq_comm]
  · rw [if_neg fun heq => hsame (List.append_cancel_left heq), h.mem_iff other found hother]
    simp [hsame]

/-- A file of another kind is no component file, wherever it is put. -/
theorem putOther (h : Stores w outputBase files) {folder name : String} (hfolder : folder ≠ "")
    (hplain : Path.IsPlain name.toList) (hname : componentEnding.isSuffixOf name.toList = false)
    (hput : w.putFile (Path.join folder name) content = .ok after) : Stores after outputBase files := by
  obtain ⟨hextends, hdistinct, hfile⟩ := putFile_ok hput
  have hplace : w.placeOf (Path.join folder name) = w.placeOf folder ++ [name] := by
    have hname : PlainNames [name] := by simpa [PlainNames] using hplain
    simpa [pathText] using placeOf_join w hfolder hname
  refine ⟨hdistinct h.distinct, hextends.hasFolder h.folder, fun other found hother => ?_⟩
  have hne : w.placeOf outputBase ++ other ≠ w.placeOf folder ++ [name] := by
    intro heq
    have hlast := congrArg List.getLast? heq
    unfold isComponent at hother
    cases hcase : other.getLast? with
    | none => simp [hcase, componentEnding] at hother
    | some last =>
      rw [List.getLast?_append, hcase] at hlast
      simp at hlast
      rw [hcase, Option.getD_some, hlast, hname] at hother
      exact absurd hother (by simp)
  rw [hextends.placeOf_eq, hfile, hplace, if_neg hne]
  exact h.mem_iff other found hother

end Stores

/-! ## All sources -/

/-- A source that did not fail, with what it gave. -/
structure Kept where
  source : SourcePath
  processed : Processed

/-- Where the components of the source are stored, and what is stored there. -/
def Kept.entry (kept : Kept) : Location × FileContent := (componentPlace kept.source.place, kept.processed.stored)

/-- What a source gave in a run: the outcome of processing it at a point between the start and the end. -/
structure Gave (options : ExtractionOptions) (root outputBase : String) (s t : Session) (source : SourcePath)
    (result : Option Processed) : Prop where
  outcome : ∃ before, Extends s.workspace before.workspace ∧ Extends before.workspace t.workspace ∧
    outcomeOf options root outputBase source before = result
  file : ∀ p, result = some p → p.file = fileRecord s.workspace.folder s.root source.path

/-- What processing sources leaves: results, and component files of those that gave one. -/
structure SourceRun (options : ExtractionOptions) (root outputBase : String) (sources : List SourcePath) (s t : Session)
    (files : List (Location × FileContent)) (results : List (Option Processed)) (kept : List Kept) : Prop where
  root_eq : t.root = s.root
  extends_start : Extends s.workspace t.workspace
  gave : List.Forall₂ (Gave options root outputBase s t) sources results
  kept_eq : results.filterMap id = kept.map (·.processed)
  sublist : (kept.map (·.source)).Sublist sources
  kept_spec : ∀ k ∈ kept, k.processed.file = fileRecord s.workspace.folder s.root k.source.path ∧ k.processed.Normal
  stores : Stores t.workspace outputBase (files ++ kept.map Kept.entry)

section

variable {options : ExtractionOptions} {root outputBase : String} {sources : List SourcePath} {source : SourcePath}
  {s middle t : Session} {files : List (Location × FileContent)} {results : List (Option Processed)} {kept : List Kept}

theorem SourceRun.nil (h : Stores s.workspace outputBase files) : SourceRun options root outputBase [] s s files [] [] :=
  ⟨rfl, Extends.refl _, .nil, rfl, List.Sublist.refl _, by simp, by simpa using h⟩

theorem Gave.of_later {result : Option Processed} (hroot : middle.root = s.root)
    (hextends : Extends s.workspace middle.workspace) (h : Gave options root outputBase middle t source result) :
    Gave options root outputBase s t source result := by
  obtain ⟨⟨before, hbefore, hafter, houtcome⟩, hfile⟩ := h
  refine ⟨⟨before, hextends.trans hbefore, hafter, houtcome⟩, fun p hp => ?_⟩
  rw [hfile p hp, hextends.folder_eq, hroot]

/-- A source that fails leaves nothing but folders. -/
theorem SourceRun.cons_none (hnone : outcomeOf options root outputBase source s = none)
    (hleaves : Leaves options root outputBase source s middle none)
    (h : SourceRun options root outputBase sources middle t files results kept) :
    SourceRun options root outputBase (source :: sources) s t files (none :: results) kept := by
  obtain ⟨hroot, hadds⟩ := hleaves
  have hextends := hadds.extends_before
  have hall := hextends.trans h.extends_start
  have hfirst : Gave options root outputBase s t source none := ⟨⟨s, Extends.refl _, hall, hnone⟩, by simp⟩
  refine ⟨h.root_eq.trans hroot, hall, .cons hfirst (h.gave.imp fun _ _ => Gave.of_later hroot hextends),
    h.kept_eq, h.sublist.cons _, fun k hk => ?_, h.stores⟩
  rw [← hextends.folder_eq, ← hroot]
  exact h.kept_spec k hk

/-- A source that does not fail leaves its component file. -/
theorem SourceRun.cons_some {p : Processed} (hsome : outcomeOf options root outputBase source s = some p)
    (hkeeps : ∀ handler ∈ options.handlers, handler.Keeps)
    (hleaves : Leaves options root outputBase source s middle (some p))
    (h : SourceRun options root outputBase sources middle t (files ++ [Kept.entry ⟨source, p⟩]) results kept) :
    SourceRun options root outputBase (source :: sources) s t files (some p :: results) (⟨source, p⟩ :: kept) := by
  obtain ⟨hroot, hfile, hnormal, made, hadds, hput⟩ := hleaves
  have hextends := hadds.extends_before.trans (putFile_ok hput).1
  have hall := hextends.trans h.extends_start
  have hfirst : Gave options root outputBase s t source (some p) := by
    refine ⟨⟨s, Extends.refl _, hall, hsome⟩, fun q hq => ?_⟩
    cases hq
    exact hfile
  refine ⟨h.root_eq.trans hroot, hall, .cons hfirst (h.gave.imp fun _ _ => Gave.of_later hroot hextends), ?_,
    h.sublist.cons_cons _, fun k hk => ?_, ?_⟩
  · simpa using h.kept_eq
  · rcases List.mem_cons.mp hk with rfl | hk
    · exact ⟨hfile, hnormal hkeeps⟩
    · rw [← hextends.folder_eq, ← hroot]
      exact h.kept_spec k hk
  · simpa using h.stores

/-- **Processing never stops**, and every source that does not fail stores its components. -/
theorem exec_sources (hroot : root ≠ "") (hkeeps : ∀ handler ∈ options.handlers, handler.Keeps)
    (hbelow : ∀ source ∈ sources, source.Below root) (hnodup : (sources.map SourcePath.place).Nodup)
    (hstores : Stores s.workspace outputBase files)
    (hnew : ∀ source ∈ sources, componentPlace source.place ∉ files.map (·.1)) :
    ∃ results t kept,
      Job.exec (sources.mapM (processOrReport options (Path.tidy root) outputBase)) s = (.ok results, t) ∧
        SourceRun options (Path.tidy root) outputBase sources s t files results kept := by
  -- along the sources both the session and what is stored grow, so both are general in the induction
  induction sources generalizing s files with
  | nil => exact ⟨[], s, [], rfl, SourceRun.nil hstores⟩
  | cons source sources ih =>
    obtain ⟨hsource, hrest⟩ := List.forall_mem_cons.mp hbelow
    obtain ⟨hfree, hfrees⟩ := List.forall_mem_cons.mp hnew
    rw [List.map_cons, List.nodup_cons] at hnodup
    obtain ⟨middle, hprocess, hleaves⟩ := exec_processOrReport options (Path.tidy root) outputBase source s
    cases houtcome : outcomeOf options (Path.tidy root) outputBase source s with
    | none =>
      rw [houtcome] at hprocess hleaves
      obtain ⟨results, t, kept, hrun, hspec⟩ := ih hrest hnodup.2 (hstores.addsFolders hleaves.2) hfrees
      exact ⟨none :: results, t, kept, Job.exec_mapM_cons hprocess hrun, hspec.cons_none houtcome hleaves⟩
    | some p =>
      rw [houtcome] at hprocess hleaves
      have hwritten := hleaves
      obtain ⟨-, -, -, made, hadds, hput⟩ := hwritten
      rw [hsource.path, outputPath_source s.workspace.isAbsolute_folder hroot hsource.ne_nil hsource.plain] at hput
      have hstored := (hstores.addsFolders hadds).putComponent (plainNames_componentPlace hsource.plain) hfree hput
      have hlater : ∀ other ∈ sources,
          componentPlace other.place ∉ (files ++ [(componentPlace source.place, p.stored)]).map (·.1) := by
        intro other hother hmem
        rw [List.map_append, List.mem_append, List.map_singleton, List.mem_singleton] at hmem
        rcases hmem with hmem | hmem
        · exact hfrees other hother hmem
        · have hplace := componentPlace_inj (hrest other hother).plain hsource.plain (hrest other hother).ne_nil
            hsource.ne_nil hmem
          exact hnodup.1 (hplace ▸ List.mem_map_of_mem hother)
      obtain ⟨results, t, kept, hrun, hspec⟩ := ih hrest hnodup.2 hstored hlater
      exact ⟨some p :: results, t, ⟨source, p⟩ :: kept, Job.exec_mapM_cons hprocess hrun,
        hspec.cons_some houtcome hkeeps hleaves⟩

end

end ComponentDocs

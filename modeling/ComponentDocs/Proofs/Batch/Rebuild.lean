import ComponentDocs.Batch.Rebuild
import ComponentDocs.Proofs.Batch.Build
import ComponentDocs.Proofs.Json.RoundTrip
import ComponentDocs.Proofs.Lists
import Mathlib.Data.List.Perm.Basic

/-!
# Rebuilding after building

* `storedComponents_eq`: the component files are read back as they were written;
* `exec_storeGraph_again`, `Stores.storeGraph`: storing a graph once more, and beside component files;
* `rebuildFrom`, `exec_rebuildGraph`: rebuilding as reading and what follows;
* **`rebuild_of_build`**: the graph that is rebuilt from the component files is that of the run.
-/

namespace ComponentDocs

open Workspace

/-! ## Reading component files -/

/-- What is read back of a component file. -/
def Kept.readBack (kept : Kept) : String × Json :=
  (pathText (componentPlace kept.source.place), .arr (kept.processed.components.map .obj))

theorem read_stored {p : Processed} (h : p.Normal) :
    Json.read (String.ofList (Text.withLineFeeds p.stored.characters)) = .ok (.arr (p.components.map .obj)) := by
  have hsound : (Json.arr (p.components.map .obj)).Sound := by
    rw [Json.sound_arr_iff]
    intro item hitem
    obtain ⟨component, hcomponent, rfl⟩ := List.mem_map.mp hitem
    exact Record.sound_obj_iff.mpr (h.components component hcomponent).1
  have hcharacters : p.stored.characters = (Json.arr (p.components.map .obj)).indentedText.toList := rfl
  rw [hcharacters, Json.withLineFeeds_indentedText, String.ofList_toList, Json.read_indentedText hsound]

section

variable {w : Workspace} {root outputBase : String} {kept : List Kept}

theorem nodup_entries (hbelow : ∀ k ∈ kept, k.source.Below root) (hnodup : (kept.map fun k => k.source.place).Nodup) :
    (kept.map Kept.entry).Nodup := by
  rw [List.nodup_map_iff_inj_on hnodup.of_map]
  intro k hk other hother heq
  have hplace : k.source.place = other.source.place := componentPlace_inj (hbelow k hk).plain (hbelow other hother).plain
    (hbelow k hk).ne_nil (hbelow other hother).ne_nil (congrArg Prod.fst heq)
  exact List.inj_on_of_nodup_map hnodup hk hother hplace

/-- The component files below the output folder are those of the kept sources. -/
theorem perm_entries (hstores : Stores w outputBase (kept.map Kept.entry))
    (hbelow : ∀ k ∈ kept, k.source.Below root) (hnodup : (kept.map fun k => k.source.place).Nodup) :
    ((w.filesBelow outputBase).filter fun file => isComponent file.1).Perm (kept.map Kept.entry) := by
  have hfound : ((w.filesBelow outputBase).filter fun file => isComponent file.1).Nodup :=
    (List.Nodup.of_map _ (nodup_filesBelow hstores.distinct outputBase)).filter _
  rw [List.perm_ext_iff_of_nodup hfound (nodup_entries hbelow hnodup)]
  rintro ⟨place, content⟩
  rw [List.mem_filter, mem_filesBelow_iff hstores.distinct hstores.folder]
  constructor
  · rintro ⟨hfile, hplace⟩
    exact (hstores.mem_iff place content hplace).mp hfile
  · intro hmem
    obtain ⟨k, hk, heq⟩ := List.mem_map.mp hmem
    have hplace : isComponent place = true := by
      rw [show place = componentPlace k.source.place from (congrArg Prod.fst heq).symm]
      exact isSuffixOf_getLast_componentPlace (hbelow k hk).ne_nil
    exact ⟨(hstores.mem_iff place content hplace).mpr hmem, hplace⟩

theorem exists_componentFiles_eq (hstores : Stores w outputBase (kept.map Kept.entry))
    (hbelow : ∀ k ∈ kept, k.source.Below root) (hnodup : (kept.map fun k => k.source.place).Nodup) :
    ∃ others : List Kept, others.Perm kept ∧
      componentFiles w outputBase = others.map fun k => (pathText (componentPlace k.source.place), k.processed.stored) := by
  -- the order in which folders are walked is not the order of the sources
  obtain ⟨others, hperm, hothers⟩ := exists_of_perm_map
    ((List.mergeSort_perm _ fun a b : Location × FileContent => walkedBefore a.1 b.1).trans
      (perm_entries hstores hbelow hnodup))
  refine ⟨others, hperm, ?_⟩
  have hfiles : componentFiles w outputBase = (((w.filesBelow outputBase).filter fun file => isComponent file.1).mergeSort
      fun a b => walkedBefore a.1 b.1).map fun file => (pathText file.1, file.2) := rfl
  rw [hfiles, hothers, List.map_map]
  rfl

/-- The component files are read back as they were written. -/
theorem storedComponents_eq (hstores : Stores w outputBase (kept.map Kept.entry))
    (hbelow : ∀ k ∈ kept, k.source.Below root) (hnodup : (kept.map fun k => k.source.place).Nodup)
    (hnormal : ∀ k ∈ kept, k.processed.Normal) :
    ∃ others : List Kept, others.Perm kept ∧ storedComponents w outputBase = .ok (others.map Kept.readBack) := by
  obtain ⟨others, hperm, hfiles⟩ := exists_componentFiles_eq hstores hbelow hnodup
  refine ⟨others, hperm, ?_⟩
  unfold storedComponents
  rw [hfiles, mapM_ok_iff, List.forall₂_map_left_iff, List.forall₂_map_right_iff, List.forall₂_same]
  intro k hk
  rw [read_stored (hnormal k (hperm.mem_iff.mp hk))]
  rfl

end

/-! ## Storing a graph -/

theorem storeGraph_eq (graphDir : String) (g : Graph) :
    storeGraph graphDir g = (do
      Job.change (·.putFile (Path.join graphDir "component_metadata.graphml") (.graph g))
      Job.change (·.putFile (Path.join graphDir "component_metadata.gpickle") (.graph g))
      Job.say ("Wrote " ++ String.intercalate " and " (graphFileNames.map (Path.join graphDir)))) := by
  simp [storeGraph, graphFileNames]

theorem exec_storeGraph_ok {graphDir : String} {g : Graph} {s t : Session} {u : Unit}
    (h : Job.exec (storeGraph graphDir g) s = (.ok u, t)) :
    ∃ middle, s.workspace.putFile (Path.join graphDir "component_metadata.graphml") (.graph g) = .ok middle ∧
      middle.putFile (Path.join graphDir "component_metadata.gpickle") (.graph g) = .ok t.workspace := by
  rw [storeGraph_eq] at h
  obtain ⟨_, s₁, h₁, h⟩ := Job.exec_bind_ok h
  obtain ⟨_, s₂, h₂, h⟩ := Job.exec_bind_ok h
  cases h
  exact ⟨s₁.workspace, (Job.exec_change_ok h₁).1, (Job.exec_change_ok h₂).1⟩

/-- Where a graph was stored, a later one can be. -/
theorem exec_storeGraph_again {graphDir : String} {g : Graph} {s t later : Session} {u : Unit}
    (h : Job.exec (storeGraph graphDir g) s = (.ok u, t)) (hlater : Extends t.workspace later.workspace) (new : Graph) :
    ∃ last, Job.exec (storeGraph graphDir new) later = (.ok (), last) := by
  obtain ⟨middle, hfirst, hsecond⟩ := exec_storeGraph_ok h
  obtain ⟨again, hagain⟩ := putFile_again hfirst ((putFile_ok hsecond).1.trans hlater) (.graph new)
  have hextends := hlater.trans (putFile_ok hagain).1
  obtain ⟨last, hlast⟩ := putFile_again hsecond hextends (.graph new)
  rw [storeGraph_eq]
  simp only [Job.exec_bind, Job.exec_change, hagain, hlast, Job.exec_say]
  exact ⟨_, rfl⟩

theorem Stores.storeGraph {outputBase graphDir : String} {g : Graph} {s t : Session} {u : Unit}
    {files : List (Location × FileContent)} (hstores : Stores s.workspace outputBase files) (hgraphDir : graphDir ≠ "")
    (h : Job.exec (storeGraph graphDir g) s = (.ok u, t)) : Stores t.workspace outputBase files := by
  obtain ⟨middle, hfirst, hsecond⟩ := exec_storeGraph_ok h
  exact (hstores.putOther hgraphDir (by decide) (by decide) hfirst).putOther hgraphDir (by decide) (by decide) hsecond

/-! ## Rebuilding -/

/-- What is done with the component files that were read: their graph is stored. -/
def rebuildFrom (graphDir root : String) (stored : List (String × Json)) : Job Graph := do
  let session ← get
  let files := stored.map fun entry =>
    { file := fileRecord session.workspace.folder session.root (sourceOf (some root) entry.1),
      components := entry.2.items.map Json.fields : Processed }
  let g ← Job.look fun _ => graphOf files
  Job.change (·.makeFolders graphDir)
  storeGraph graphDir g
  pure g

section

variable {settings : BuildSettings} {root outputBase : String} {s start t : Session} {sources : List SourcePath}
  {results : List (Option Processed)} {kept : List Kept} {g : Graph}

theorem exec_rebuildGraph (hroot : root ≠ "") (graphDir : String) (s : Session) :
    Job.exec (rebuildGraph outputBase graphDir (some root)) s =
      match storedComponents s.workspace outputBase with
      | .ok stored => Job.exec (rebuildFrom graphDir root stored) { s with root := some root }
      | .error fault => (.error fault, { s with root := some root }) := by
  have hrebuild : rebuildGraph outputBase graphDir (some root) = (do
      Job.setRoot root
      let stored ← Job.look (storedComponents · outputBase)
      rebuildFrom graphDir root stored) := by
    simp [rebuildGraph, rebuildFrom, Method.nonEmpty?, hroot]
  rw [hrebuild, Job.exec_bind_of_ok (Job.exec_setRoot ..), Job.exec_bind, Job.exec_look]
  cases storedComponents s.workspace outputBase <;> rfl

/-- The file that is read back of a component file is the one that was processed. -/
theorem processed_readBack {root : String} {w : Workspace} {k : Kept} (hroot : root ≠ "") (hbelow : k.source.Below root)
    (hfile : k.processed.file = fileRecord w.folder (some root) k.source.path) :
    (⟨fileRecord w.folder (some root) (sourceOf (some root) k.readBack.1), k.readBack.2.items.map Json.fields⟩ : Processed) =
      k.processed := by
  have hrecord : fileRecord w.folder (some root) (sourceOf (some root) k.readBack.1) = k.processed.file := by
    rw [hfile, hbelow.path, fileRecord_source w.isAbsolute_folder hroot hbelow.plain, Kept.readBack,
      sourceOf_componentPlace hbelow.ne_nil]
  have hcomponents : k.readBack.2.items.map Json.fields = k.processed.components := by
    simp [Kept.readBack, Json.items, Json.fields, Function.comp_def]
  rw [hrecord, hcomponents]

theorem SourceRun.below (hprepared : Prepared settings start sources)
    (hrun : SourceRun settings.options root outputBase sources start t [] results kept) :
    ∀ k ∈ kept, k.source.Below settings.root := fun _ hk =>
  hprepared.below _ (hrun.sublist.subset (List.mem_map_of_mem hk))

theorem SourceRun.nodup (hprepared : Prepared settings start sources)
    (hrun : SourceRun settings.options root outputBase sources start t [] results kept) :
    (kept.map fun k => k.source.place).Nodup := by
  simpa [Function.comp_def] using hprepared.nodup.sublist (hrun.sublist.map SourcePath.place)

/-- Files of different sources share no identifier if their identifiers and those emitted for them differ. -/
theorem SourceRun.pairwise_disjoint (hroot : settings.root ≠ "") (hprepared : Prepared settings start sources)
    (hrun : SourceRun settings.options root outputBase sources start t [] results kept)
    (hapart : (results.filterMap id).Pairwise Processed.Apart) :
    (kept.map (·.processed)).Pairwise fun p q => p.ids.Disjoint q.ids := by
  have hdot : ∀ p ∈ kept.map (·.processed), p.Normal ∧ '.' ∈ p.fileId.toList := by
    intro p hp
    obtain ⟨k, hk, rfl⟩ := List.mem_map.mp hp
    obtain ⟨hfile, hnormal⟩ := hrun.kept_spec k hk
    refine ⟨hnormal, ?_⟩
    rw [Processed.fileId, hfile, hprepared.root_eq]
    exact (hrun.below hprepared k hk).dot_mem_shown start.workspace.isAbsolute_folder hroot
  rw [hrun.kept_eq] at hapart
  refine hapart.imp_of_mem fun {p q} hp hq hpq => ?_
  exact hpq.disjoint_ids (hdot p hp).1 (hdot q hq).1 (hdot p hp).2 (hdot q hq).2

/-- The files that are read back are those that were processed, in some order. -/
theorem SourceRun.exists_stored {w : Workspace} (hroot : settings.root ≠ "") (hprepared : Prepared settings start sources)
    (hrun : SourceRun settings.options root outputBase sources start t [] results kept)
    (hstores : Stores w outputBase (kept.map Kept.entry)) (hfolder : w.folder = start.workspace.folder) :
    ∃ stored files, storedComponents w outputBase = .ok stored ∧ List.Perm files (kept.map (·.processed)) ∧
      stored.map (fun entry => (⟨fileRecord w.folder (some settings.root) (sourceOf (some settings.root) entry.1),
        entry.2.items.map Json.fields⟩ : Processed)) = files := by
  obtain ⟨others, hperm, hread⟩ := storedComponents_eq hstores (hrun.below hprepared) (hrun.nodup hprepared)
    fun k hk => (hrun.kept_spec k hk).2
  refine ⟨_, others.map (·.processed), hread, hperm.map _, ?_⟩
  rw [List.map_map]
  refine List.map_congr_left fun k hk => ?_
  have hkept := hperm.mem_iff.mp hk
  refine processed_readBack hroot (hrun.below hprepared k hkept) ?_
  rw [hfolder, ← hprepared.root_eq]
  exact (hrun.kept_spec k hkept).1

/-- The graph of the kept files, in whatever order they come. -/
theorem SourceRun.graphOf_eq {files : List Processed}
    (hrun : SourceRun settings.options root outputBase sources start t [] results kept)
    (hdisjoint : (kept.map (·.processed)).Pairwise fun p q => p.ids.Disjoint q.ids)
    (hperm : files.Perm (kept.map (·.processed))) : graphOf files = .ok (together files) := by
  refine ComponentDocs.graphOf_eq ?_ (hperm.symm.pairwise hdisjoint fun h _ hq hp => h hp hq)
  intro p hp
  obtain ⟨k, hk, rfl⟩ := List.mem_map.mp (hperm.mem_iff.mp hp)
  exact (hrun.kept_spec k hk).2

/-- Where the files are those that a run left, its graph is rebuilt. -/
theorem exists_rebuild {done stop later : Session} (hroot : settings.root ≠ "")
    (hprepared : Prepared settings start sources)
    (hrun : SourceRun settings.options root settings.outputBase sources start t [] results kept)
    (hdisjoint : (kept.map (·.processed)).Pairwise fun p q => p.ids.Disjoint q.ids)
    (hdone : done.workspace = t.workspace) (hstore : Job.exec (storeGraph settings.graphDir g) done = (.ok (), stop))
    (hsame : later.workspace = stop.workspace) :
    ∃ h last, Job.exec (rebuildGraph settings.outputBase settings.graphDir (some settings.root)) later = (.ok h, last) ∧
      h.nodes.Perm (together (kept.map (·.processed))).nodes ∧
      h.edges.Perm (together (kept.map (·.processed))).edges := by
  obtain ⟨middle, hfirst, hsecond⟩ := exec_storeGraph_ok hstore
  have hextends : Extends start.workspace later.workspace := by
    rw [hdone] at hfirst
    exact hrun.extends_start.trans (hsame ▸ (putFile_ok hfirst).1.trans (putFile_ok hsecond).1)
  obtain ⟨made, hmade⟩ := hprepared.graphFolder
  have hstores : Stores later.workspace settings.outputBase (kept.map Kept.entry) := by
    have hbefore : Stores done.workspace settings.outputBase (kept.map Kept.entry) := hdone ▸ hrun.stores
    exact hsame ▸ hbefore.storeGraph (makeFolders_ok hmade).2.1 hstore
  obtain ⟨stored, files, hread, hperm, hfiles⟩ := hrun.exists_stored hroot hprepared hstores hextends.folder_eq
  -- the folder of the graph is there, and so are its two files
  have hready : Extends stop.workspace ({ later with root := some settings.root } : Session).workspace :=
    hsame ▸ Extends.refl _
  obtain ⟨last, hlast⟩ := exec_storeGraph_again hstore hready (together files)
  refine ⟨together files, last, ?_, perm_together hperm⟩
  rw [exec_rebuildGraph hroot, hread]
  simp only [rebuildFrom, Job.exec_bind, Job.exec_look, Job.exec_get, hfiles, hrun.graphOf_eq hdisjoint hperm,
    Job.exec_change, makeFolders_again hmade hextends, hlast]
  rfl

/-- **Rebuilding.** The graph of a run is that of the sources that did not fail, and the one that is rebuilt from the
component files has the same nodes and edges. This needs files with identifiers of their own: of files that share one,
the last gives the attributes, and the two runs end with different ones. -/
theorem rebuild_of_build {stop later : Session} (hroot : settings.root ≠ "")
    (hkeeps : ∀ handler ∈ settings.options.handlers, handler.Keeps) (hproper : s.workspace.Proper)
    (hstart : StartsEmpty settings s.workspace) (hprepare : Job.exec (prepare settings) s = (.ok sources, start))
    (hprocess : Job.exec (processAll settings sources) start = (.ok results, t))
    (hapart : (results.filterMap id).Pairwise Processed.Apart)
    (hbuild : Job.exec (buildAll settings) s = (.ok g, stop)) (hsame : later.workspace = stop.workspace) :
    g = together (results.filterMap id) ∧
      List.Forall₂ (Gave settings.options (Path.tidy settings.root) settings.outputBase start t) sources results ∧
      ∃ h last, Job.exec (rebuildGraph settings.outputBase settings.graphDir (some settings.root)) later = (.ok h, last) ∧
        h.nodes.Perm g.nodes ∧ h.edges.Perm g.edges := by
  have hprepared := prepare_ok hproper hstart hprepare
  obtain ⟨kept, hrun⟩ := processAll_ok hroot hkeeps hprepared hprocess
  have hdisjoint := hrun.pairwise_disjoint hroot hprepared hapart
  rw [exec_buildAll hprepare, buildFrom, Job.exec_bind_of_ok hprocess, Job.exec_bind, Job.exec_look,
    hrun.kept_eq, hrun.graphOf_eq hdisjoint (List.Perm.refl _)] at hbuild
  dsimp only at hbuild
  obtain ⟨_, done, hsay, hbuild⟩ := Job.exec_bind_ok hbuild
  have hdone : done.workspace = t.workspace := by
    cases hsay
    rfl
  obtain ⟨_, stored, hstore, hbuild⟩ := Job.exec_bind_ok hbuild
  cases hbuild
  rw [hrun.kept_eq]
  obtain ⟨h, last, hrebuild, hnodes, hedges⟩ := exists_rebuild hroot hprepared hrun hdisjoint hdone hstore hsame
  exact ⟨rfl, hrun.gave, h, last, hrebuild, hnodes, hedges⟩

end

/-! ## Sample folders -/

theorem sourceFiles_of_sorted {w : Workspace} {root : String}
    (hsorted : ((w.filesBelow (Path.tidy root)).map (·.1)).Pairwise fun a b => namesBefore a b = true) :
    sourceFiles w root = (ignoreRules w (Path.tidy root)).map fun rules =>
      ((w.filesBelow (Path.tidy root)).map (·.1)).filterMap (sourcePath? rules (Path.tidy root)) := by
  unfold sourceFiles
  dsimp only
  rw [List.mergeSort_of_pairwise hsorted]
  cases ignoreRules w (Path.tidy root) <;> rfl

/-- Notes the identifier of the file. -/
def CallerHandler.nodeId : CallerHandler := fun file =>
  Handler.always fun _ _ doc => doc.set "nodeId" (Record.get file "id")

theorem CallerHandler.keeps_nodeId : CallerHandler.nodeId.Keeps := by
  intro file hfile
  have hwrites : (nodeId file).Writes := Handler.writes_always fun _ _ _ =>
    .set .refl (by decide) (isWritten_of_notMem (by decide) (hfile.get "id"))
  exact hwrites.keeps

def sampleSettings : BuildSettings where
  root := "r"
  outputBase := "out"
  graphDir := "g"
  clear := true
  options := { ExtractionOptions.none with handlers := [CallerHandler.nodeId] }

/-- A component without a name, as the grammar reads it. -/
def cardText : SourceText where
  content := "export default () => <div />\n"
  tree := .mk "program" true false "" 0 29
    [.mk "export_statement" true false "" 0 28
      [.mk "export" false false "" 0 6 [], .mk "default" false false "" 7 14 [],
        .mk "arrow_function" true false "value" 15 28
          [.mk "formal_parameters" true false "parameters" 15 17 [], .mk "=>" false false "" 18 20 [],
            .mk "jsx_self_closing_element" true false "body" 21 28 []]]]
  parser := .none

/-- A text that the grammar cannot read. -/
def brokenText : SourceText := ⟨"(", .mk "program" true false "" 0 1 [.mk "ERROR" true false "" 0 1 []], .none⟩

/-- A folder of three sources, with what an earlier run left. -/
def sampleFolder : Workspace where
  top := .folder [("r", .folder [("broken.js", .file (.text brokenText)), ("card.js", .file (.text cardText)),
    ("empty.js", .file (.text (.plain "")))]), ("out", .folder [("old.js.json", .file (.text (.plain "[]")))])]
  here := []

def sampleSources : List SourcePath :=
  ["broken.js", "card.js", "empty.js"].map fun name => ⟨"r/" ++ name, name, "javascript"⟩

/-- The session after the two folders are made. -/
def sampleStart : Session :=
  (Job.exec (makeReady sampleSettings) { Session.start sampleFolder with root := some "r" }).2

theorem sourceFiles_sampleFolder : sourceFiles sampleFolder "r" = .ok sampleSources :=
  (sourceFiles_of_sorted (by decide +kernel)).trans (by decide +kernel)

theorem exec_prepare_sampleFolder :
    Job.exec (prepare sampleSettings) (Session.start sampleFolder) = (.ok sampleSources, sampleStart) :=
  exec_prepare sourceFiles_sampleFolder (Job.exec_eq_of_toOption (by decide +kernel))

/-- The source that cannot be read brings nothing; what the other two bring is rebuilt. -/
theorem rebuild_sampleFolder : ∃ results t g stop h last,
    Job.exec (prepare sampleSettings) (Session.start sampleFolder) = (.ok sampleSources, sampleStart) ∧
    Job.exec (processAll sampleSettings sampleSources) sampleStart = (.ok results, t) ∧
    results.map (·.map Processed.fileId) = [none, some "r/card.js", some "r/empty.js"] ∧
    Job.exec (buildAll sampleSettings) (Session.start sampleFolder) = (.ok g, stop) ∧
    Job.exec (rebuildGraph "out" "g" (some "r")) stop = (.ok h, last) ∧
    g = together (results.filterMap id) ∧ h.nodes.Perm g.nodes ∧ h.edges.Perm g.edges := by
  have hkeeps : ∀ handler ∈ sampleSettings.options.handlers, handler.Keeps := by
    intro handler hhandler
    exact List.mem_singleton.mp hhandler ▸ CallerHandler.keeps_nodeId
  have hproper : sampleFolder.Proper := by
    constructor <;> simp only [sampleFolder, Entry.Distinct, Entry.Each, Entry.EachOf] <;> decide
  obtain ⟨results, hresults, hids, hapart⟩ :
      ∃ results ∈ (Job.exec (processAll sampleSettings sampleSources) sampleStart).1.toOption,
        results.map (·.map Processed.fileId) = [none, some "r/card.js", some "r/empty.js"] ∧
          (results.filterMap id).Pairwise Processed.Apart := by decide +kernel
  obtain ⟨g, hg⟩ : ∃ g, (Job.exec (buildAll sampleSettings) (Session.start sampleFolder)).1.toOption = some g := by
    rw [exec_buildAll exec_prepare_sampleFolder]
    exact Option.isSome_iff_exists.mp (by decide +kernel)
  have hprocess := Job.exec_eq_of_toOption hresults
  have hbuild := Job.exec_eq_of_toOption hg
  obtain ⟨hgraph, -, h, last, hrebuild, hnodes, hedges⟩ := rebuild_of_build (by decide) hkeeps hproper
    (.inl ⟨rfl, by decide +kernel⟩) exec_prepare_sampleFolder hprocess hapart hbuild rfl
  exact ⟨results, _, g, _, h, last, exec_prepare_sampleFolder, hprocess, hids, hbuild, hrebuild, hgraph, hnodes, hedges⟩

/-- Two sources without components whose paths are shown in one way. -/
def backslashFolder : Workspace where
  top := .folder [("r", .folder [("a", .folder [("b.js", .file (.text (.plain "")))]),
    ("a\\b.js", .file (.text (.plain "")))])]
  here := []

def backslashSources : List SourcePath := ["a/b.js", "a\\b.js"].map fun name => ⟨"r/" ++ name, name, "javascript"⟩

/-- The session after the two folders are made. -/
def backslashStart : Session :=
  (Job.exec (makeReady sampleSettings) { Session.start backslashFolder with root := some "r" }).2

theorem exec_prepare_backslashFolder :
    Job.exec (prepare sampleSettings) (Session.start backslashFolder) = (.ok backslashSources, backslashStart) := by
  have hsources : sourceFiles backslashFolder "r" = .ok backslashSources :=
    (sourceFiles_of_sorted (by decide +kernel)).trans (by decide +kernel)
  exact exec_prepare hsources (Job.exec_eq_of_toOption (by decide +kernel))

/-- Files with one identifier come in another order when they are rebuilt, and the last one gives the attributes. -/
theorem rebuild_backslashFolder : backslashFolder.Proper ∧ StartsEmpty sampleSettings backslashFolder ∧
    ∃ results t g stop h last,
      Job.exec (prepare sampleSettings) (Session.start backslashFolder) = (.ok backslashSources, backslashStart) ∧
      Job.exec (processAll sampleSettings backslashSources) backslashStart = (.ok results, t) ∧
      results.map (·.map Processed.emittedIds) = [some [], some []] ∧
      Job.exec (buildAll sampleSettings) (Session.start backslashFolder) = (.ok g, stop) ∧
      Job.exec (rebuildGraph "out" "g" (some "r")) stop = (.ok h, last) ∧
      g.nodes.map (fun node => Record.text? node.2 "absolute_path") = [some "/r/a\\b.js"] ∧
      h.nodes.map (fun node => Record.text? node.2 "absolute_path") = [some "/r/a/b.js"] := by
  refine ⟨?_, ?_, ?_⟩
  · constructor <;> simp only [backslashFolder, Entry.Distinct, Entry.Each, Entry.EachOf] <;> decide
  · have hempty : ∀ made ∈ (backslashFolder.makeFolders "out").toOption, made.filesBelow "out" = [] := by decide +kernel
    exact .inr fun made hmade => hempty made (by simp [show backslashFolder.makeFolders "out" = _ from hmade, Except.toOption])
  obtain ⟨results, hresults, hids⟩ :
      ∃ results ∈ (Job.exec (processAll sampleSettings backslashSources) backslashStart).1.toOption,
        results.map (·.map Processed.emittedIds) = [some [], some []] := by decide +kernel
  obtain ⟨g, hg, hpaths⟩ : ∃ g ∈ (Job.exec (buildFrom sampleSettings backslashSources) backslashStart).1.toOption,
      g.nodes.map (fun node => Record.text? node.2 "absolute_path") = [some "/r/a\\b.js"] := by decide +kernel
  obtain ⟨h, hh, hpaths'⟩ : ∃ h ∈ (Job.exec (rebuildGraph "out" "g" (some "r"))
      (Job.exec (buildFrom sampleSettings backslashSources) backslashStart).2).1.toOption,
      h.nodes.map (fun node => Record.text? node.2 "absolute_path") = [some "/r/a/b.js"] := by
    rw [exec_rebuildGraph (by decide), storedComponents, componentFiles,
      mergeSort_eq_reverse (by decide +kernel) (by decide +kernel)]
    decide +kernel
  exact ⟨results, _, g, _, h, _, exec_prepare_backslashFolder, Job.exec_eq_of_toOption hresults, hids,
    (exec_buildAll exec_prepare_backslashFolder).trans (Job.exec_eq_of_toOption hg), Job.exec_eq_of_toOption hh,
    hpaths, hpaths'⟩

end ComponentDocs

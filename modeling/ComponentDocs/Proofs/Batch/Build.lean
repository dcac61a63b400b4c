import ComponentDocs.Batch.Build
import ComponentDocs.Proofs.Batch.Output

/-!
# What a run leaves

* `StartsEmpty`: a run that starts with an output folder without files;
* `prepare`, `processAll`, `buildFrom`: the parts of a run, `exec_buildAll`: the whole run;
* **`processAll_ok`**: below the output folder there are then the component files of the sources that did not fail.
-/

namespace ComponentDocs

open Workspace

/-! ## The start -/

/-- The output folder is cleared, or there are no files in it when it is made. -/
def StartsEmpty (settings : BuildSettings) (w : Workspace) : Prop :=
  (settings.clear = true ∧ w.hasFolder settings.outputBase = true) ∨
    ∀ made, w.makeFolders settings.outputBase = .ok made → made.filesBelow settings.outputBase = []

/-- The files after the two folders are cleared, if they are. -/
def cleared (settings : BuildSettings) (w : Workspace) : Workspace :=
  if settings.clear && w.hasFolder settings.outputBase then
    (w.removeTree settings.outputBase).removeTree settings.graphDir
  else w

theorem exec_clearOutput (settings : BuildSettings) (s : Session) :
    Job.exec (clearOutput settings) s = (.ok (), { s with workspace := cleared settings s.workspace }) := by
  unfold clearOutput cleared
  cases settings.clear with
  | false => rfl
  | true =>
    simp only [Bool.true_and, Job.exec_bind, Job.exec_get]
    split_ifs
    · rw [Job.exec_change]
      rfl
    · rfl

/-- When the output folder is made, there are no files in it. -/
theorem StartsEmpty.file?_eq_none {settings : BuildSettings} {w made : Workspace} (h : StartsEmpty settings w)
    (hdistinct : w.top.Distinct) (hmade : (cleared settings w).makeFolders settings.outputBase = .ok made) :
    made.top.Distinct ∧ ∀ place, made.top.file? (made.placeOf settings.outputBase ++ place) = none := by
  obtain ⟨hadds, hempty, hreach, hlabel, -⟩ := makeFolders_ok hmade
  have hfolder : made.hasFolder settings.outputBase = true := hasFolder_iff.mpr ⟨hempty, hreach, hlabel⟩
  by_cases hclear : (settings.clear && w.hasFolder settings.outputBase) = true
  · have hcleared : cleared settings w = (w.removeTree settings.outputBase).removeTree settings.graphDir := if_pos hclear
    rw [Bool.and_eq_true] at hclear
    -- the graph folder may lie anywhere, but removing it makes no file in the output folder
    obtain ⟨hhere₁, hdistinct₁, -⟩ := removeTree_spec w settings.outputBase
    obtain ⟨hhere₂, hdistinct₂, hnone₂⟩ := removeTree_spec (w.removeTree settings.outputBase) settings.graphDir
    rw [hcleared] at hadds
    have hhere : made.here = w.here := hadds.extends_before.here.trans (hhere₂.trans hhere₁)
    refine ⟨hadds.distinct (hdistinct₂ (hdistinct₁ hdistinct)), fun place => ?_⟩
    rw [hadds.files, placeOf_congr hhere]
    exact hnone₂ _ (file?_removeTree hclear.2 place)
  · have hcleared : cleared settings w = w := if_neg hclear
    rw [hcleared] at hmade hadds
    have hdistinct' := hadds.distinct hdistinct
    refine ⟨hdistinct', fun place => ?_⟩
    have hnone : made.filesBelow settings.outputBase = [] := by
      rcases h with ⟨hclear', hthere⟩ | h
      · exact absurd (by simp [hclear', hthere]) hclear
      · exact h made hmade
    cases hfile : made.top.file? (made.placeOf settings.outputBase ++ place) with
    | none => rfl
    | some content =>
      have hmem : (place, content) ∈ made.filesBelow settings.outputBase :=
        (mem_filesBelow_iff hdistinct' hfolder).mpr hfile
      rw [hnone] at hmem
      exact absurd hmem List.not_mem_nil

/-! ## The run -/

/-- Clears the two folders, if that is asked for, and makes them. -/
def makeReady (settings : BuildSettings) : Job Unit := do
  clearOutput settings
  Job.change (·.makeFolders settings.outputBase)
  Job.change (·.makeFolders settings.graphDir)

/-- What a run does before it processes its sources: it finds them and makes the two folders ready. -/
def prepare (settings : BuildSettings) : Job (List SourcePath) := do
  Job.setRoot settings.root
  let sources ← Job.look (sourceFiles · settings.root)
  makeReady settings
  pure sources

/-- Processes the sources that were found, one after another. -/
def processAll (settings : BuildSettings) (sources : List SourcePath) : Job (List (Option Processed)) :=
  sources.mapM (processOrReport settings.options (Path.tidy settings.root) settings.outputBase)

/-- What a run does with its sources: it processes them and stores the graph of what they gave. -/
def buildFrom (settings : BuildSettings) (sources : List SourcePath) : Job Graph := do
  let results ← processAll settings sources
  let g ← Job.look fun _ => graphOf (results.filterMap id)
  Job.say (doneLine (results.filterMap id) sources.length settings.outputBase)
  storeGraph settings.graphDir g
  pure g

theorem buildAll_eq (settings : BuildSettings) : buildAll settings = prepare settings >>= buildFrom settings := by
  simp [buildAll, prepare, makeReady, buildFrom, processAll]

theorem exec_buildAll {settings : BuildSettings} {s start : Session} {sources : List SourcePath}
    (hprepare : Job.exec (prepare settings) s = (.ok sources, start)) :
    Job.exec (buildAll settings) s = Job.exec (buildFrom settings sources) start := by
  rw [buildAll_eq, Job.exec_bind_of_ok hprepare]

theorem exec_prepare {settings : BuildSettings} {s start : Session} {sources : List SourcePath}
    (h : sourceFiles s.workspace settings.root = .ok sources)
    (hready : Job.exec (makeReady settings) { s with root := some settings.root } = (.ok (), start)) :
    Job.exec (prepare settings) s = (.ok sources, start) := by
  unfold prepare
  simp only [Job.exec_bind, Job.exec_setRoot, Job.exec_look, h, hready]
  rfl

/-- What there is before sources are processed: their places below the root, and folders without component files. -/
structure Prepared (settings : BuildSettings) (start : Session) (sources : List SourcePath) : Prop where
  below : ∀ source ∈ sources, source.Below settings.root
  nodup : (sources.map SourcePath.place).Nodup
  root_eq : start.root = some settings.root
  graphFolder : ∃ made : Workspace, made.makeFolders settings.graphDir = .ok start.workspace
  stores : Stores start.workspace settings.outputBase []

section

variable {settings : BuildSettings} {s start t : Session} {sources : List SourcePath}
  {results : List (Option Processed)}

theorem prepare_ok (hproper : s.workspace.Proper) (hstart : StartsEmpty settings s.workspace)
    (h : Job.exec (prepare settings) s = (.ok sources, start)) : Prepared settings start sources := by
  unfold prepare at h
  obtain ⟨_, s₁, h₁, h⟩ := Job.exec_bind_ok h
  cases h₁
  obtain ⟨found, s₂, h₂, h⟩ := Job.exec_bind_ok h
  obtain ⟨hsources, rfl⟩ := Job.exec_look_ok h₂
  obtain ⟨_, s₃, hready, h⟩ := Job.exec_bind_ok h
  cases h
  obtain ⟨_, s₄, h₄, hready⟩ := Job.exec_bind_ok hready
  rw [exec_clearOutput] at h₄
  cases h₄
  obtain ⟨_, s₅, h₅, h₆⟩ := Job.exec_bind_ok hready
  obtain ⟨houtput, hroot₅⟩ := Job.exec_change_ok h₅
  obtain ⟨hgraph, hroot₆⟩ := Job.exec_change_ok h₆
  obtain ⟨hbelow, hnodup⟩ := sourceFiles_ok hproper hsources
  obtain ⟨hdistinct, hnone⟩ := hstart.file?_eq_none hproper.distinct houtput
  obtain ⟨-, hempty, hreach, hlabel, -⟩ := makeFolders_ok houtput
  have hadds := (makeFolders_ok hgraph).1
  have hstores : Stores s₅.workspace settings.outputBase [] :=
    ⟨hdistinct, hasFolder_iff.mpr ⟨hempty, hreach, hlabel⟩, fun place content _ => by simp [hnone]⟩
  exact ⟨hbelow, hnodup, hroot₆.trans hroot₅, ⟨s₅.workspace, hgraph⟩, hstores.addsFolders hadds⟩

/-- All sources are processed; below the output folder there are then the component files of those that did not fail. -/
theorem processAll_ok (hroot : settings.root ≠ "") (hkeeps : ∀ handler ∈ settings.options.handlers, handler.Keeps)
    (hprepared : Prepared settings start sources)
    (h : Job.exec (processAll settings sources) start = (.ok results, t)) :
    ∃ kept, SourceRun settings.options (Path.tidy settings.root) settings.outputBase sources start t [] results kept := by
  obtain ⟨gave, after, kept, hrun, hspec⟩ :=
    exec_sources hroot hkeeps hprepared.below hprepared.nodup hprepared.stores (by simp)
  unfold processAll at h
  rw [hrun] at h
  cases h
  exact ⟨kept, hspec⟩

end

end ComponentDocs

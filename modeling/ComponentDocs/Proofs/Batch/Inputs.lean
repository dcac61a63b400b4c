import ComponentDocs.Proofs.Batch.Rebuild

/-!
# What a run does to its sources

A run that clears its output looks for its sources first. What it writes later has names that no source has, so a
source is lost exactly if it lies in a folder that is cleared.

* `IsOutputPlace`, `languageOf?_of_isOutputPlace`: the names of the files that a run writes are no names of sources;
* `Job.LeavesFile`: a job leaves the file at a place as it is;
* `InCleared`, `file?_cleared`: the places that are cleared;
* `file?_buildAll`: a run leaves the files with other names than its own as clearing leaves them;
* `exists_file?_of_sourceFiles`: a source is a file;
* **`sources_of_buildAll`**: the sources that are lost in a run, and those that stay as they are.
-/

namespace ComponentDocs

open Workspace

/-! ## Last names -/

theorem Text.exists_splitAt_append {separator : Char} {ending : List Char} (h : separator ∉ ending) (front : List Char) :
    ∃ pieces piece, Text.splitAt separator (front ++ ending) = pieces ++ [piece ++ ending] := by
  induction front with
  | nil => exact ⟨[], [], Text.splitAt_of_notMem h⟩
  | cons c front ih =>
    obtain ⟨pieces, piece, hsplit⟩ := ih
    rw [List.cons_append, Text.splitAt, hsplit]
    split_ifs with hc
    · exact ⟨[] :: pieces, piece, rfl⟩
    · cases pieces with
      | nil => exact ⟨[], c :: piece, rfl⟩
      | cons first pieces => exact ⟨(c :: first) :: pieces, piece, rfl⟩

theorem exists_names_eq {path : String} {front ending : List Char} (hpath : path.toList = front ++ ending)
    (hslash : '/' ∉ ending) (hne : ending ≠ []) :
    ∃ names piece, Path.names path = names ++ [String.ofList (piece ++ ending)] := by
  obtain ⟨pieces, piece, hsplit⟩ := Text.exists_splitAt_append hslash front
  have hlast : piece ++ ending ≠ [] := List.append_ne_nil_of_right_ne_nil _ hne
  refine ⟨(pieces.filter (!·.isEmpty)).map String.ofList, piece, ?_⟩
  rw [Path.names, Path.segments, hpath, hsplit, List.filter_append, List.filter_cons_of_pos (by simpa using hlast),
    List.map_append]
  rfl

theorem exists_placeOf_eq (w : Workspace) {path : String} {front ending : List Char}
    (hpath : path.toList = front ++ ending) (hslash : '/' ∉ ending) (hlong : 2 < ending.length) :
    ∃ above name, w.placeOf path = above ++ [name] ∧ ending <:+ name.toList := by
  obtain ⟨names, piece, hnames⟩ := exists_names_eq hpath hslash (List.ne_nil_of_length_pos (by omega))
  -- So the last name is longer than `.` and `..`.
  have hname : ∀ short : List Char, short.length ≤ 2 → String.ofList (piece ++ ending) ≠ String.ofList short := by
    intro short hshort heq
    have hlength := congrArg List.length (String.ofList_inj.mp heq)
    rw [List.length_append] at hlength
    omega
  refine ⟨names.foldl follow (w.startOf path), String.ofList (piece ++ ending), ?_, ?_⟩
  · rw [placeOf, hnames, List.foldl_append, List.foldl_cons, List.foldl_nil, follow]
    rw [if_neg (hname ['.'] (by decide)), if_neg (hname ['.', '.'] (by decide))]
  · rw [String.toList_ofList]
    exact List.suffix_append _ _

theorem exists_toList_join (base path : String) : ∃ front, (Path.join base path).toList = front ++ path.toList := by
  unfold Path.join
  split_ifs
  · exact ⟨[], rfl⟩
  · exact ⟨_, String.toList_append⟩
  · exact ⟨_, String.toList_append⟩

/-! ## Files that are written -/

/-- The endings of the files that a run writes. -/
def writtenEndings : List (List Char) := [componentEnding, ".graphml".toList, ".gpickle".toList]

/-- The place has a name of a file that a run may write. -/
def IsOutputPlace (place : Location) : Prop :=
  ∃ above name, place = above ++ [name] ∧ ∃ ending ∈ writtenEndings, ending <:+ name.toList

theorem isOutputPlace_placeOf_join (w : Workspace) (base path : String) (front : List Char) {ending : List Char}
    (hending : ending ∈ writtenEndings) (hpath : path.toList = front ++ ending) :
    IsOutputPlace (w.placeOf (Path.join base path)) := by
  obtain ⟨before, hjoin⟩ := exists_toList_join base path
  have hplain : ∀ ending ∈ writtenEndings, '/' ∉ ending ∧ 2 < ending.length := by decide
  obtain ⟨hslash, hlong⟩ := hplain ending hending
  rw [hpath, ← List.append_assoc] at hjoin
  obtain ⟨above, name, hplace, hsuffix⟩ := exists_placeOf_eq w hjoin hslash hlong
  exact ⟨above, name, hplace, ending, hending, hsuffix⟩

theorem nameExtension_of_suffix {name : String} {ending : List Char} (hdot : '.' ∉ ending)
    (h : '.' :: ending <:+ name.toList) :
    nameExtension name = String.ofList ('.' :: ending) ∨ nameExtension name = "" := by
  obtain ⟨front, hfront⟩ := h
  have htake : name.toList.reverse.takeWhile (· ≠ '.') = ending.reverse := by
    rw [← hfront, List.reverse_append, List.reverse_cons, List.append_assoc,
      List.takeWhile_append_of_pos fun c hc => by simpa using fun heq : c = '.' => hdot (heq ▸ List.mem_reverse.mp hc)]
    simp
  unfold nameExtension
  simp only [htake, List.reverse_reverse]
  split
  · exact Or.inl rfl
  · exact Or.inr rfl

/-- A file that a run writes has no name of a source. -/
theorem languageOf?_of_isOutputPlace {place : Location} (h : IsOutputPlace place) :
    languageOf? (place.getLast?.getD "") = none := by
  obtain ⟨above, name, rfl, ending, hending, hsuffix⟩ := h
  rw [List.getLast?_concat, Option.getD_some]
  have hendings : ∀ ending ∈ writtenEndings, ∃ rest, ending = '.' :: rest ∧ '.' ∉ rest ∧
      ∀ language ∈ languageExtensions, language.2.contains (String.ofList ('.' :: rest)) = false ∧
        language.2.contains "" = false := by
    intro ending hending
    simp only [writtenEndings, List.mem_cons, List.not_mem_nil, or_false] at hending
    rcases hending with rfl | rfl | rfl
    · exact ⟨"json".toList, by decide, by decide, by decide⟩
    · exact ⟨"graphml".toList, by decide, by decide, by decide⟩
    · exact ⟨"gpickle".toList, by decide, by decide, by decide⟩
  obtain ⟨rest, rfl, hdot, hlanguages⟩ := hendings ending hending
  rw [languageOf?, Option.map_eq_none_iff, List.find?_eq_none]
  intro language hlanguage
  obtain ⟨hextension, hempty⟩ := hlanguages language hlanguage
  rcases nameExtension_of_suffix hdot hsuffix with hname | hname
  · simp only [hname, hextension, Bool.false_eq_true, not_false_eq_true]
  · simp only [hname, hempty, Bool.false_eq_true, not_false_eq_true]

/-! ## Jobs that leave a file -/

namespace Job

variable {α β : Type} {place : Location}

/-- The job leaves the file at a place as it is, whether it succeeds or fails. -/
def LeavesFile (place : Location) (job : Job α) : Prop :=
  ∀ s, (exec job s).2.workspace.top.file? place = s.workspace.top.file? place

theorem LeavesFile.bind {job : Job α} {next : α → Job β} (h : job.LeavesFile place)
    (hnext : ∀ a, (next a).LeavesFile place) : (job >>= next).LeavesFile place := by
  intro s
  have hjob := h s
  rw [exec_bind]
  rcases hrun : exec job s with ⟨_ | a, t⟩
  · rw [hrun] at hjob
    exact hjob
  · rw [hrun] at hjob
    exact (hnext a t).trans hjob

theorem leavesFile_pure (a : α) : (pure a : Job α).LeavesFile place := fun _ => rfl

theorem leavesFile_say (line : String) : (say line).LeavesFile place := fun _ => rfl

theorem leavesFile_look (f : Workspace → Except Fault α) : (look f).LeavesFile place := fun s => by
  rw [exec_look]

theorem leavesFile_change {f : Workspace → Except Fault Workspace}
    (h : ∀ before after, f before = .ok after → after.top.file? place = before.top.file? place) :
    (change f).LeavesFile place := by
  intro s
  rw [exec_change]
  cases hf : f s.workspace with
  | error fault => rfl
  | ok after => exact h s.workspace after hf

theorem leavesFile_mapM {job : α → Job β} (h : ∀ a, (job a).LeavesFile place) (items : List α) :
    (items.mapM job).LeavesFile place := by
  induction items with
  | nil => exact leavesFile_pure _
  | cons item items ih =>
    rw [List.mapM_cons]
    exact (h item).bind fun _ => ih.bind fun _ => leavesFile_pure _

theorem leavesFile_makeFolders (path : String) : (change (·.makeFolders path)).LeavesFile place :=
  leavesFile_change fun _ _ h => (makeFolders_ok h).1.files place

theorem leavesFile_putFile {path : String} (content : FileContent) (h : ∀ w : Workspace, place ≠ w.placeOf path) :
    (change (·.putFile path content)).LeavesFile place :=
  leavesFile_change fun before _ hput => ((putFile_ok hput).2.2 place).trans (if_neg (h before))

end Job

section

variable {place : Location} (hplace : ¬ IsOutputPlace place)
include hplace

theorem ne_placeOf_join (w : Workspace) (base path : String) (front : List Char) {ending : List Char}
    (hending : ending ∈ writtenEndings) (hpath : path.toList = front ++ ending) :
    place ≠ w.placeOf (Path.join base path) := by
  rintro rfl
  exact hplace (isOutputPlace_placeOf_join w base path front hending hpath)

theorem leavesFile_processOrReport (options : ExtractionOptions) (root outputBase : String) (source : SourcePath) :
    (processOrReport options root outputBase source).LeavesFile place := by
  intro s
  obtain ⟨t, hrun, -, hleaves⟩ := exec_processOrReport options root outputBase source s
  rw [hrun]
  cases houtcome : outcomeOf options root outputBase source s with
  | none =>
    rw [houtcome] at hleaves
    exact hleaves.files place
  | some p =>
    rw [houtcome] at hleaves
    obtain ⟨-, -, made, hadds, hput⟩ := hleaves
    have hending : componentEnding ∈ writtenEndings := List.mem_cons_self
    have hne : place ≠ made.placeOf (outputPath s.workspace.folder root outputBase source.path) :=
      ne_placeOf_join hplace made outputBase _ _ hending String.toList_append
    exact ((putFile_ok hput).2.2 place).trans ((if_neg hne).trans (hadds.files place))

theorem leavesFile_storeGraph (graphDir : String) (g : Graph) : (storeGraph graphDir g).LeavesFile place := by
  have hml : ∀ w : Workspace, place ≠ w.placeOf (Path.join graphDir "component_metadata.graphml") := fun w =>
    ne_placeOf_join hplace w graphDir _ "component_metadata".toList
      (by decide : ".graphml".toList ∈ writtenEndings) (by decide)
  have hpickle : ∀ w : Workspace, place ≠ w.placeOf (Path.join graphDir "component_metadata.gpickle") := fun w =>
    ne_placeOf_join hplace w graphDir _ "component_metadata".toList
      (by decide : ".gpickle".toList ∈ writtenEndings) (by decide)
  rw [storeGraph_eq]
  exact (Job.leavesFile_putFile _ hml).bind fun _ => (Job.leavesFile_putFile _ hpickle).bind fun _ =>
    Job.leavesFile_say _

theorem leavesFile_buildFrom (settings : BuildSettings) (sources : List SourcePath) :
    (buildFrom settings sources).LeavesFile place := by
  have hprocess : (processAll settings sources).LeavesFile place :=
    Job.leavesFile_mapM (fun source => leavesFile_processOrReport hplace _ _ _ source) sources
  exact hprocess.bind fun _ => (Job.leavesFile_look _).bind fun _ => (Job.leavesFile_say _).bind fun _ =>
    (leavesFile_storeGraph hplace _ _).bind fun _ => Job.leavesFile_pure _

end

/-! ## Clearing -/

/-- The place lies in one of the two folders that are cleared. The second one is looked up after the first one is
gone. -/
def InCleared (settings : BuildSettings) (w : Workspace) (place : Location) : Prop :=
  settings.clear = true ∧ w.hasFolder settings.outputBase = true ∧
    (w.placeOf settings.outputBase <+: place ∨
      ((w.removeTree settings.outputBase).hasFolder settings.graphDir = true ∧ w.placeOf settings.graphDir <+: place))

instance (settings : BuildSettings) (w : Workspace) (place : Location) : Decidable (InCleared settings w place) :=
  inferInstanceAs (Decidable (_ ∧ _ ∧ (_ ∨ _ ∧ _)))

theorem file?_removeTree_eq (w : Workspace) (path : String) (place : Location) :
    (w.removeTree path).top.file? place =
      if w.hasFolder path = true ∧ w.placeOf path <+: place then none else w.top.file? place := by
  obtain ⟨hfolder, hsame⟩ | ⟨hfolder, top, htop, -, hfile⟩ := removeTree_cases w path
  · rw [hsame, if_neg fun h => Bool.false_ne_true (hfolder.symm.trans h.1)]
  · simp only [htop, hfile, hfolder, true_and]

theorem file?_cleared (settings : BuildSettings) (w : Workspace) (place : Location) :
    (cleared settings w).top.file? place = if InCleared settings w place then none else w.top.file? place := by
  unfold cleared
  split_ifs with hclear hplace hplace
  · rw [Bool.and_eq_true] at hclear
    rw [file?_removeTree_eq, file?_removeTree_eq, placeOf_congr (removeTree_spec w settings.outputBase).1]
    rcases hplace.2.2 with houtput | hgraph
    · simp [hclear.2, houtput]
    · rw [if_pos hgraph]
  · rw [Bool.and_eq_true] at hclear
    rw [file?_removeTree_eq, file?_removeTree_eq, placeOf_congr (removeTree_spec w settings.outputBase).1,
      if_neg fun hgraph => hplace ⟨hclear.1, hclear.2, Or.inr hgraph⟩,
      if_neg fun houtput => hplace ⟨hclear.1, hclear.2, Or.inl houtput.2⟩]
  · exact absurd (Bool.and_eq_true_iff.mpr ⟨hplace.1, hplace.2.1⟩) hclear
  · rfl

/-! ## Sources -/

/-- A run that found its sources leaves the files with other names than its own as clearing leaves them. -/
theorem file?_buildAll {settings : BuildSettings} {s : Session} {sources : List SourcePath}
    (hsources : sourceFiles s.workspace settings.root = .ok sources) {place : Location} (hplace : ¬ IsOutputPlace place) :
    (Job.exec (buildAll settings) s).2.workspace.top.file? place = (cleared settings s.workspace).top.file? place := by
  have hrest : Job.LeavesFile place (do
      Job.change (·.makeFolders settings.outputBase)
      Job.change (·.makeFolders settings.graphDir)
      buildFrom settings sources) :=
    (Job.leavesFile_makeFolders _).bind fun _ => (Job.leavesFile_makeFolders _).bind fun _ =>
      leavesFile_buildFrom hplace settings sources
  have hbuild : buildAll settings = (do
      Job.setRoot settings.root
      let sources ← Job.look (sourceFiles · settings.root)
      clearOutput settings
      Job.change (·.makeFolders settings.outputBase)
      Job.change (·.makeFolders settings.graphDir)
      buildFrom settings sources) := by
    rw [buildAll_eq, prepare, makeReady]
    simp only [bind_assoc, pure_bind]
  have hlook : Job.exec (Job.look (sourceFiles · settings.root)) { s with root := some settings.root } =
      (.ok sources, { s with root := some settings.root }) := by rw [Job.exec_look, hsources]
  rw [hbuild, Job.exec_bind_of_ok (Job.exec_setRoot ..), Job.exec_bind_of_ok hlook,
    Job.exec_bind_of_ok (exec_clearOutput ..)]
  exact hrest _

theorem placeOf_inFolder_tidy (w : Workspace) (root : String) {place : Location} (h : PlainNames place) :
    w.placeOf (Path.inFolder (Path.tidy root) (pathText place)) = w.placeOf (Path.tidy root) ++ place := by
  unfold Path.inFolder
  split_ifs with hhere
  · rw [hhere, placeOf, placeOf, names_pathText h, foldl_follow h, startOf, isAbsolute_pathText h]
    rfl
  · obtain ⟨htidy, -⟩ | ⟨hne, -⟩ := Path.tidy_cases root
    · exact absurd htidy hhere
    · exact placeOf_join w hne h

/-- A source is a file whose name is none of those that a run writes. -/
theorem exists_file?_of_sourceFiles {w : Workspace} (hproper : w.Proper) {root : String} {sources : List SourcePath}
    (h : sourceFiles w root = .ok sources) : ∀ source ∈ sources, ∃ content,
      w.top.file? (w.placeOf source.path) = some content ∧ ¬ IsOutputPlace (w.placeOf source.path) := by
  obtain ⟨rules, -, h⟩ := bind_eq_ok_iff.mp h
  cases h
  intro source hsource
  obtain ⟨place, hplace, hfound⟩ := List.mem_filterMap.mp hsource
  obtain ⟨⟨place, content⟩, hfile, rfl⟩ := List.mem_map.mp ((List.mergeSort_perm _ _).mem_iff.mp hplace)
  obtain ⟨hne, hplain⟩ := plain_of_mem_filesBelow hproper.distinct hproper.plain hfile
  have hfolder := hasFolder_of_mem_filesBelow hfile
  have hlanguage : languageOf? (place.getLast?.getD "") ≠ none := by
    unfold sourcePath? at hfound
    simp only [Option.bind_eq_bind, Option.bind_eq_some_iff] at hfound
    obtain ⟨language, hlanguage, -⟩ := hfound
    rw [hlanguage]
    exact Option.some_ne_none _
  obtain ⟨hsource, hbelow⟩ := below_of_sourcePath? hne hplain hfound
  rw [hbelow.path, hsource, placeOf_inFolder_tidy w root hplain]
  refine ⟨content, (mem_filesBelow_iff hproper.distinct hfolder).mp hfile, fun houtput => hlanguage ?_⟩
  have hlast := languageOf?_of_isOutputPlace houtput
  rwa [List.getLast?_append_of_ne_nil _ hne] at hlast

/-- **A source stays as it is in a run, unless it lies in one of the two folders that are cleared; then it is lost.**
Whether the run succeeds or fails does not matter. -/
theorem sources_of_buildAll (settings : BuildSettings) (s : Session) {sources : List SourcePath}
    (hproper : s.workspace.Proper) (hsources : sourceFiles s.workspace settings.root = .ok sources) :
    ∀ source ∈ sources, ∃ content, s.workspace.top.file? (s.workspace.placeOf source.path) = some content ∧
      (Job.exec (buildAll settings) s).2.workspace.top.file? (s.workspace.placeOf source.path) =
        if InCleared settings s.workspace (s.workspace.placeOf source.path) then none else some content := by
  intro source hsource
  obtain ⟨content, hfile, hname⟩ := exists_file?_of_sourceFiles hproper hsources source hsource
  refine ⟨content, hfile, ?_⟩
  rw [file?_buildAll hsources hname, file?_cleared, hfile]

/-- The sources of the sample folder stay where the output has a folder of its own, and are lost where it is the folder
of the sources. -/
theorem sources_of_sampleFolder : sampleFolder.Proper ∧ sourceFiles sampleFolder "r" = .ok sampleSources ∧
    ∀ source ∈ sampleSources,
      (∃ content, (Job.exec (buildAll sampleSettings) (Session.start sampleFolder)).2.workspace.top.file?
        (sampleFolder.placeOf source.path) = some content) ∧
      (Job.exec (buildAll { sampleSettings with outputBase := "r" }) (Session.start sampleFolder)).2.workspace.top.file?
        (sampleFolder.placeOf source.path) = none := by
  have hproper : sampleFolder.Proper := by
    constructor <;> simp only [sampleFolder, Entry.Distinct, Entry.Each, Entry.EachOf] <;> decide
  have hapart : ∀ source ∈ sampleSources, ¬ InCleared sampleSettings sampleFolder (sampleFolder.placeOf source.path) ∧
      InCleared { sampleSettings with outputBase := "r" } sampleFolder (sampleFolder.placeOf source.path) := by
    decide +kernel
  refine ⟨hproper, sourceFiles_sampleFolder, fun source hsource => ?_⟩
  obtain ⟨hstays, hlost⟩ := hapart source hsource
  constructor
  · obtain ⟨content, -, hfile⟩ := sources_of_buildAll sampleSettings (Session.start sampleFolder) hproper
      sourceFiles_sampleFolder source hsource
    exact ⟨content, hfile.trans (if_neg hstays)⟩
  · obtain ⟨content, -, hfile⟩ := sources_of_buildAll { sampleSettings with outputBase := "r" }
      (Session.start sampleFolder) hproper sourceFiles_sampleFolder source hsource
    exact hfile.trans (if_pos hlost)

end ComponentDocs

import ComponentDocs.Proofs.Batch.Graphs
import ComponentDocs.Proofs.Batch.Session

/-!
# Processing one source

* `Processed.stored`: what the component file of a processed file holds;
* `exec_processOrReport`: processing a source adds folders, and its component file if it does not fail.
-/

namespace ComponentDocs

open Workspace

/-- What the component file of a processed file holds. -/
def Processed.stored (p : Processed) : FileContent :=
  .text (.plain (Json.arr (p.components.map .obj)).indentedText)

theorem sound_fileRecord (folder : String) (root : Option String) (path : String) :
    Record.Sound (fileRecord folder root path) := by
  refine ⟨by simp [fileRecord, Fields.names], fun field hfield => ?_⟩
  simp only [fileRecord, List.mem_cons, List.not_mem_nil, or_false] at hfield
  rcases hfield with rfl | rfl | rfl | rfl <;> exact Json.sound_str _

/-- Extracting reads a file and changes none. -/
theorem exec_extractSource (options : ExtractionOptions) (path : String) (s : Session) :
    ∃ result t, Job.exec (extractSource options path) s = (result, t) ∧ t.workspace = s.workspace ∧ t.root = s.root ∧
      ∀ p, result = .ok p → p.file = fileRecord s.workspace.folder s.root path ∧
        ((∀ handler ∈ options.handlers, handler.Keeps) → p.Normal) := by
  unfold extractSource
  simp only [Job.exec_bind, Job.exec_get, Job.exec_look]
  cases hread : s.workspace.readText path with
  | error fault => exact ⟨_, _, rfl, rfl, rfl, by simp⟩
  | ok source =>
    simp only [Job.exec_report]
    split
    · rename_i components hcomponents
      refine ⟨_, _, rfl, rfl, rfl, fun p hp => ?_⟩
      cases hp
      refine ⟨rfl, fun hkeeps => ⟨rfl, ?_⟩⟩
      exact isNormal_extract (sound_fileRecord _ _ _) hkeeps hcomponents
    · exact ⟨_, _, rfl, rfl, rfl, by simp⟩

/-- A file is written, or nothing but folders is added. -/
theorem exec_writeText (path text : String) (s : Session) :
    ∃ result t, Job.exec (writeText path text) s = (result, t) ∧ t.root = s.root ∧
      match result with
      | .ok () => ∃ made, AddsFolders s.workspace made ∧ made.putFile path (.text (.plain text)) = .ok t.workspace
      | .error _ => AddsFolders s.workspace t.workspace := by
  unfold writeText
  simp only [Job.exec_bind, Job.exec_change]
  cases hmade : s.workspace.makeFolders (parentFolder path) with
  | error fault => exact ⟨_, _, rfl, rfl, AddsFolders.refl _⟩
  | ok made =>
    have hadds := (makeFolders_ok hmade).1
    dsimp only
    cases hopened : made.putFile path (.text (.plain "")) with
    | error fault => exact ⟨_, _, rfl, rfl, hadds⟩
    | ok opened =>
      obtain ⟨after, hwritten, hput⟩ := putFile_putFile hopened (.text (.plain text))
      dsimp only
      rw [hwritten]
      exact ⟨_, _, rfl, rfl, made, hadds, hput⟩

section

variable (options : ExtractionOptions) (root outputBase : String) (source : SourcePath)

/-- What processing a source leaves: folders that were added, and a component file if there is a result. -/
def Leaves (s t : Session) (result : Option Processed) : Prop :=
  t.root = s.root ∧
    match result with
    | none => AddsFolders s.workspace t.workspace
    | some p =>
      p.file = fileRecord s.workspace.folder s.root source.path ∧
        ((∀ handler ∈ options.handlers, handler.Keeps) → p.Normal) ∧
        ∃ made, AddsFolders s.workspace made ∧
          made.putFile (outputPath s.workspace.folder root outputBase source.path) p.stored = .ok t.workspace

/-- What processing a source gives, if it gives something. -/
def outcomeOf (s : Session) : Option Processed := (Job.exec (processSource options root outputBase source) s).1.toOption

theorem exec_processSource (s : Session) :
    ∃ result t, Job.exec (processSource options root outputBase source) s = (result, t) ∧
      Leaves options root outputBase source s t result.toOption := by
  obtain ⟨extracted, middle, hextract, hsame, hroot, hspec⟩ := exec_extractSource options source.path s
  unfold processSource
  simp only [Job.exec_bind, hextract]
  cases extracted with
  | error fault => exact ⟨_, _, rfl, hroot, hsame ▸ AddsFolders.refl _⟩
  | ok p =>
    obtain ⟨hfile, hnormal⟩ := hspec p rfl
    simp only [Job.exec_get]
    obtain ⟨written, after, hwrite, hroot', hwritten⟩ := exec_writeText
      (outputPath middle.workspace.folder root outputBase source.path)
      (Json.arr (p.components.map .obj)).indentedText middle
    rw [hwrite]
    rw [hsame] at hwritten
    cases written with
    | error fault => exact ⟨_, _, rfl, hroot'.trans hroot, hwritten⟩
    | ok _ =>
      obtain ⟨made, hadds, hput⟩ := hwritten
      exact ⟨_, _, rfl, hroot'.trans hroot, hfile, hnormal, made, hadds, hput⟩

/-- Processing a source and reporting faults always goes on. -/
theorem exec_processOrReport (s : Session) :
    ∃ t, Job.exec (processOrReport options root outputBase source) s =
        (.ok (outcomeOf options root outputBase source s), t) ∧
      Leaves options root outputBase source s t (outcomeOf options root outputBase source s) := by
  obtain ⟨result, t, hprocess, hleaves⟩ := exec_processSource options root outputBase source s
  unfold processOrReport outcomeOf
  rw [Job.exec_tryCatch, Job.exec_map, hprocess]
  cases result with
  | error fault => exact ⟨_, rfl, hleaves⟩
  | ok p => exact ⟨_, rfl, hleaves⟩

end

end ComponentDocs

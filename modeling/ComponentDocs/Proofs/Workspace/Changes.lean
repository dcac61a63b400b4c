import ComponentDocs.Proofs.Path.Names
import ComponentDocs.Proofs.Traversal
import ComponentDocs.Proofs.Workspace.Tree
import ComponentDocs.Workspace.Basic

/-!
# Changes of a workspace

* `Workspace.locate_eq_ok_iff`: a path leads to the place that its names say, if the way there goes through folders;
* `Workspace.Extends`: everything that was there is still there, `Workspace.AddsFolders`: and no file is new;
* `Workspace.putFile_ok`, `Workspace.makeFolders_ok`, `Workspace.file?_removeTree`: what a change does to the files;
* `Workspace.makeFolders_again`: folders that are there need not be made;
* `Workspace.mem_filesBelow_iff`: the files below a folder.
-/

namespace ComponentDocs.Workspace

variable {w before after later : Workspace} {path : String} {content : FileContent} {place : Location}

/-! ## Where a path leads -/

/-- Where a name leads. -/
def follow (place : Location) (name : String) : Location :=
  if name = "." then place else if name = ".." then place.dropLast else place ++ [name]

/-- Where a path starts. -/
def startOf (w : Workspace) (path : String) : Location := if Path.isAbsolute path then [] else w.here

/-- Where the names along a path lead. -/
def placeOf (w : Workspace) (path : String) : Location := (Path.names path).foldl follow (w.startOf path)

theorem placeOf_congr {v : Workspace} (h : v.here = w.here) : v.placeOf path = w.placeOf path := by
  rw [placeOf, placeOf, startOf, startOf, h]

/-- All names along a path but the last lead to folders. -/
def Reaches (w : Workspace) (path : String) : Prop :=
  ∀ names name rest, Path.names path = names ++ name :: rest →
    w.top.label? (names.foldl follow (w.startOf path)) = some none

theorem walk_cons_eq_ok_iff {top : Entry} {start target : Location} {name : String} {rest : List String} :
    walk top start (name :: rest) = .ok target ↔
      top.label? start = some none ∧ walk top (follow start name) rest = .ok target := by
  rw [walk, Entry.label?]
  cases top.find? start with
  | none => simp
  | some entry =>
    cases entry with
    | file content => simp [Entry.label]
    | folder entries =>
      simp only [Option.map_some, Entry.label, true_and]
      unfold follow
      split_ifs <;> rfl

theorem walk_eq_ok_iff {top : Entry} {start target : Location} {names : List String} :
    walk top start names = .ok target ↔
      names.foldl follow start = target ∧
        ∀ first name rest, names = first ++ name :: rest → top.label? (first.foldl follow start) = some none := by
  induction names generalizing start with
  | nil => simp [walk]
  | cons name names ih =>
    rw [walk_cons_eq_ok_iff, ih]
    constructor
    · rintro ⟨hstart, htarget, hway⟩
      refine ⟨htarget, fun first next rest heq => ?_⟩
      cases first with
      | nil => exact hstart
      | cons other first =>
        rw [List.cons_append, List.cons.injEq] at heq
        rw [List.foldl_cons, ← heq.1]
        exact hway first next rest heq.2
    · rintro ⟨htarget, hway⟩
      refine ⟨hway [] name names rfl, htarget, fun first next rest heq => ?_⟩
      exact hway (name :: first) next rest (by rw [heq, List.cons_append])

theorem locate_eq_ok_iff : w.locate path = .ok place ↔ path ≠ "" ∧ w.placeOf path = place ∧ w.Reaches path := by
  have hwalk : walk w.top (w.startOf path) (Path.names path) = .ok place ↔ w.placeOf path = place ∧ w.Reaches path :=
    walk_eq_ok_iff
  have hlocate : w.locate path =
      if path = "" then .error (.file .missing path)
      else (walk w.top (w.startOf path) (Path.names path)).mapError (.file · path) := rfl
  rw [hlocate]
  by_cases hempty : path = ""
  · simp [hempty]
  rw [if_neg hempty]
  cases hresult : walk w.top (w.startOf path) (Path.names path) with
  | error problem =>
    rw [hresult] at hwalk
    simp only [reduceCtorEq, false_iff] at hwalk
    simp only [Except.mapError, reduceCtorEq, false_iff]
    exact fun h => hwalk h.2
  | ok found =>
    rw [hresult] at hwalk
    simp only [Except.mapError, Except.ok.injEq] at hwalk ⊢
    exact hwalk.trans ⟨fun h => ⟨hempty, h⟩, fun h => h.2⟩

theorem names_ne_nil (hempty : path ≠ "") (habs : Path.isAbsolute path = false) : Path.names path ≠ [] := by
  have hne : path.toList ≠ [] := by simpa using hempty
  obtain ⟨c, cs, hcs⟩ := List.exists_cons_of_ne_nil hne
  have hc : c ≠ '/' := by simpa [Path.isAbsolute, hcs] using habs
  unfold Path.names Path.segments
  rw [hcs, Text.splitAt, if_neg hc]
  cases hsplit : Text.splitAt '/' cs with
  | nil => exact absurd hsplit (Text.splitAt_ne_nil '/' cs)
  | cons first rest => simp [Text.consLine]

theorem opens_of_reaches (hempty : path ≠ "") (h : w.Reaches path) : w.top.Opens (w.placeOf path) := by
  unfold placeOf
  rcases List.eq_nil_or_concat (Path.names path) with hnames | ⟨first, name, hnames⟩
  · rw [hnames]
    by_cases habs : Path.isAbsolute path = true
    · simpa [startOf, habs] using Entry.opens_nil w.top
    · exact absurd hnames (names_ne_nil hempty (by simpa using habs))
  · rw [List.concat_eq_append] at hnames
    have hfolder := h first name [] hnames
    rw [hnames, List.foldl_append, List.foldl_cons, List.foldl_nil]
    apply Entry.opens_of_dropLast
    unfold follow
    split_ifs
    · exact Entry.label?_dropLast hfolder
    · exact Entry.label?_dropLast (Entry.label?_dropLast hfolder)
    · rwa [List.dropLast_concat]

/-! ## What stays -/

/-- Everything that was there is still there: folders as folders, files as files. -/
structure Extends (before after : Workspace) : Prop where
  here : after.here = before.here
  folder : ∀ place, before.top.label? place = some none → after.top.label? place = some none
  file : ∀ place, (before.top.file? place).isSome → (after.top.file? place).isSome

namespace Extends

theorem refl (w : Workspace) : Extends w w := ⟨rfl, fun _ h => h, fun _ h => h⟩

theorem trans (h : Extends before after) (hlater : Extends after later) : Extends before later :=
  ⟨hlater.here.trans h.here, fun place hplace => hlater.folder place (h.folder place hplace),
    fun place hplace => hlater.file place (h.file place hplace)⟩

theorem startOf_eq (h : Extends before after) (path : String) : after.startOf path = before.startOf path := by
  rw [startOf, startOf, h.here]

theorem placeOf_eq (h : Extends before after) (path : String) : after.placeOf path = before.placeOf path :=
  placeOf_congr h.here

theorem reaches (h : Extends before after) (hreach : before.Reaches path) : after.Reaches path := by
  intro first name rest hnames
  rw [h.startOf_eq]
  exact h.folder _ (hreach first name rest hnames)

theorem locate (h : Extends before after) (hlocate : before.locate path = .ok place) :
    after.locate path = .ok place := by
  obtain ⟨hempty, hplace, hreach⟩ := locate_eq_ok_iff.mp hlocate
  exact locate_eq_ok_iff.mpr ⟨hempty, (h.placeOf_eq path).trans hplace, h.reaches hreach⟩

theorem isSome_find? (h : Extends before after) (hsome : (before.top.find? place).isSome) :
    (after.top.find? place).isSome := by
  obtain ⟨entry, hentry⟩ := Option.isSome_iff_exists.mp hsome
  have hsome_of_label : ∀ kind, after.top.label? place = some kind → (after.top.find? place).isSome := by
    intro kind hkind
    obtain ⟨found, hfound, -⟩ := Option.map_eq_some_iff.mp hkind
    simp [hfound]
  cases entry with
  | folder entries => exact hsome_of_label none (h.folder place (by simp [Entry.label?, hentry, Entry.label]))
  | file content =>
    obtain ⟨kind, hkind⟩ := Option.isSome_iff_exists.mp (h.file place (by simp [Entry.file?_eq_some_iff.mpr hentry]))
    exact hsome_of_label (some kind) (by simpa [Entry.file?, Option.join_eq_some_iff] using hkind)

theorem isSome_entry? (h : Extends before after) (hsome : (before.entry? path).isSome) :
    (after.entry? path).isSome := by
  unfold entry? at hsome ⊢
  cases hlocate : before.locate path with
  | error fault => simp [hlocate] at hsome
  | ok place =>
    rw [h.locate hlocate]
    rw [hlocate] at hsome
    exact h.isSome_find? hsome

end Extends

/-! ## Files -/

/-- A file is put where its path leads; whatever else is there stays. -/
theorem putFile_eq_ok_iff : w.putFile path content = .ok after ↔
    path ≠ "" ∧ w.Reaches path ∧ w.top.label? (w.placeOf path) ≠ some none ∧
      after = { w with top := w.top.put (w.placeOf path) (.file content) } := by
  unfold putFile
  cases hlocate : w.locate path with
  | error fault =>
    have hnone : ¬ (path ≠ "" ∧ w.placeOf path = w.placeOf path ∧ w.Reaches path) := by
      rw [← locate_eq_ok_iff, hlocate]
      simp
    refine iff_of_false (by simp [bind, Except.bind]) fun h => hnone ⟨h.1, rfl, h.2.1⟩
  | ok place =>
    obtain ⟨hempty, rfl, hreach⟩ := locate_eq_ok_iff.mp hlocate
    simp only [bind, Except.bind, Entry.label?]
    cases hfind : w.top.find? (w.placeOf path) with
    | none => simp [hempty, hreach, pure, Except.pure, eq_comm]
    | some entry =>
      cases entry with
      | file old => simp [hempty, hreach, pure, Except.pure, Entry.label, eq_comm]
      | folder entries => simp [Entry.label, throw, throwThe, MonadExceptOf.throw]

/-- Where no folder is, a file or an empty folder may be put. -/
theorem extends_put (hopens : w.top.Opens place) (hfolder : w.top.label? place ≠ some none) {new : Entry}
    (hfile : (w.top.file? place).isSome → new.label.isSome) : Extends w { w with top := w.top.put place new } := by
  have hbelow : ∀ more kind, w.top.label? (place ++ more) = some kind → more = [] := by
    intro more kind hkind
    by_contra hmore
    obtain ⟨entry, hentry, -⟩ := Option.map_eq_some_iff.mp hkind
    exact hfolder (Entry.label?_of_append hentry hmore)
  refine ⟨rfl, fun other hother => ?_, fun other hother => ?_⟩
  · by_cases hprefix : place <+: other
    · obtain ⟨more, rfl⟩ := hprefix
      rw [hbelow more none hother, List.append_nil] at hother
      exact absurd hother hfolder
    · exact Entry.label?_put hprefix hother
  · by_cases hprefix : place <+: other
    · obtain ⟨more, rfl⟩ := hprefix
      obtain ⟨kind, hkind⟩ := Option.isSome_iff_exists.mp hother
      have hmore := hbelow more (some kind) (by simpa [Entry.file?, Option.join_eq_some_iff] using hkind)
      rw [hmore, List.append_nil] at hother ⊢
      have hput := Entry.find?_put_append hopens new []
      rw [List.append_nil] at hput
      rw [Entry.file?, Entry.label?, hput]
      exact hfile hother
    · rwa [Entry.file?_put_elsewhere hprefix]

/-- What putting a file does. -/
theorem putFile_ok (h : w.putFile path content = .ok after) :
    Extends w after ∧ (w.top.Distinct → after.top.Distinct) ∧
      ∀ other, after.top.file? other = if other = w.placeOf path then some content else w.top.file? other := by
  obtain ⟨hempty, hreach, hfolder, rfl⟩ := putFile_eq_ok_iff.mp h
  have hopens := opens_of_reaches hempty hreach
  refine ⟨extends_put hopens hfolder fun _ => rfl, fun hdistinct => ?_, Entry.file?_put_file hopens hfolder content⟩
  exact hdistinct.put (by simp [Entry.Distinct, Entry.Each]) _

/-- Where a file was put, another one can be put later. -/
theorem putFile_again (h : w.putFile path content = .ok after) (hlater : Extends after later)
    (new : FileContent) : ∃ last, later.putFile path new = .ok last := by
  obtain ⟨hextends, -, hfile⟩ := putFile_ok h
  obtain ⟨hempty, hreach, -, -⟩ := putFile_eq_ok_iff.mp h
  have hall := hextends.trans hlater
  refine ⟨_, putFile_eq_ok_iff.mpr ⟨hempty, hall.reaches hreach, ?_, rfl⟩⟩
  have hthere := hlater.file (w.placeOf path) (by rw [hfile, if_pos rfl]; rfl)
  intro hfolder
  rw [hall.placeOf_eq] at hfolder
  simp [Entry.file?, hfolder] at hthere

/-- A file that was put may be put once more: it is then as if it were only put with the new content. -/
theorem putFile_putFile (h : w.putFile path content = .ok after) (new : FileContent) :
    ∃ last, after.putFile path new = .ok last ∧ w.putFile path new = .ok last := by
  obtain ⟨hempty, hreach, hfolder, hafter⟩ := putFile_eq_ok_iff.mp h
  obtain ⟨last, hlast⟩ := putFile_again h (Extends.refl after) new
  obtain ⟨-, -, -, heq⟩ := putFile_eq_ok_iff.mp hlast
  refine ⟨last, hlast, putFile_eq_ok_iff.mpr ⟨hempty, hreach, hfolder, ?_⟩⟩
  rw [heq, (putFile_ok h).1.placeOf_eq, hafter, Entry.put_put]

/-! ## Folders -/

/-- Everything that was there is still there, and no file is new or changed. -/
structure AddsFolders (before after : Workspace) : Prop where
  extends_before : Extends before after
  distinct : before.top.Distinct → after.top.Distinct
  files : ∀ place, after.top.file? place = before.top.file? place

namespace AddsFolders

theorem refl (w : Workspace) : AddsFolders w w := ⟨Extends.refl w, fun h => h, fun _ => rfl⟩

theorem trans (h : AddsFolders before after) (hlater : AddsFolders after later) : AddsFolders before later :=
  ⟨h.extends_before.trans hlater.extends_before, fun hdistinct => hlater.distinct (h.distinct hdistinct),
    fun place => (hlater.files place).trans (h.files place)⟩

end AddsFolders

theorem makeFolder_ok (h : w.makeFolder path = .ok after) :
    AddsFolders w after ∧ path ≠ "" ∧ after.Reaches path ∧ after.top.label? (after.placeOf path) = some none := by
  obtain ⟨place, hlocate, h⟩ := bind_eq_ok_iff.mp h
  obtain ⟨hempty, rfl, hreach⟩ := locate_eq_ok_iff.mp hlocate
  cases hfind : w.top.find? (w.placeOf path) with
  | none =>
    rw [hfind] at h
    cases h
    have hopens := opens_of_reaches hempty hreach
    have hlabel : w.top.label? (w.placeOf path) = none := by rw [Entry.label?, hfind]; rfl
    have hextends : Extends w { w with top := w.top.put (w.placeOf path) .emptyFolder } :=
      extends_put hopens (by simp [hlabel]) (by simp [Entry.file?, hlabel])
    have hnone : ∀ more, w.top.file? (w.placeOf path ++ more) = none := by
      intro more
      rw [Entry.file?, Entry.label?, Entry.find?_append, hfind]
      rfl
    refine ⟨⟨hextends, fun hdistinct => hdistinct.put Entry.distinct_emptyFolder _,
      Entry.file?_put_emptyFolder hopens hnone⟩, hempty, hextends.reaches hreach, ?_⟩
    have hput := Entry.find?_put_append hopens .emptyFolder []
    rw [List.append_nil] at hput
    rw [hextends.placeOf_eq, Entry.label?, hput]
    rfl
  | some entry =>
    rw [hfind] at h
    cases entry with
    | file old => simp [throw, throwThe, MonadExceptOf.throw] at h
    | folder entries =>
      cases h
      exact ⟨AddsFolders.refl w, hempty, hreach, by rw [Entry.label?, hfind]; rfl⟩

theorem makeFolder_of_label? (hempty : path ≠ "") (hreach : w.Reaches path)
    (hfolder : w.top.label? (w.placeOf path) = some none) : w.makeFolder path = .ok w := by
  have hlocate := locate_eq_ok_iff.mpr ⟨hempty, rfl, hreach⟩
  unfold makeFolder
  simp only [hlocate, bind, Except.bind]
  obtain ⟨entry, hentry, hlabel⟩ := Option.map_eq_some_iff.mp hfolder
  rw [hentry]
  cases entry with
  | file old => simp [Entry.label] at hlabel
  | folder entries => rfl

theorem isSome_entry?_of_label? (hempty : path ≠ "") (hreach : w.Reaches path)
    (hfolder : w.top.label? (w.placeOf path) = some none) : (w.entry? path).isSome := by
  have hlocate := locate_eq_ok_iff.mpr ⟨hempty, rfl, hreach⟩
  obtain ⟨entry, hentry, -⟩ := Option.map_eq_some_iff.mp hfolder
  simp [hlocate, hentry, entry?]

theorem makeMissing_ok {paths : List String} (h : w.makeMissing paths = .ok after) :
    AddsFolders w after ∧ ∀ path ∈ paths, (after.entry? path).isSome := by
  induction paths generalizing w with
  | nil =>
    cases h
    exact ⟨AddsFolders.refl _, by simp⟩
  | cons path paths ih =>
    rw [makeMissing] at h
    split_ifs at h with hthere
    · obtain ⟨hadds, hall⟩ := ih h
      exact ⟨hadds, List.forall_mem_cons.mpr ⟨hadds.extends_before.isSome_entry? hthere, hall⟩⟩
    · obtain ⟨made, hmade, h⟩ := bind_eq_ok_iff.mp h
      obtain ⟨hfirst, hempty, hreach, hfolder⟩ := makeFolder_ok hmade
      obtain ⟨hadds, hall⟩ := ih h
      have hmade' := hadds.extends_before.isSome_entry? (isSome_entry?_of_label? hempty hreach hfolder)
      exact ⟨hfirst.trans hadds, List.forall_mem_cons.mpr ⟨hmade', hall⟩⟩

theorem makeMissing_of_isSome {paths : List String} (h : ∀ path ∈ paths, (w.entry? path).isSome) :
    w.makeMissing paths = .ok w := by
  induction paths with
  | nil => rfl
  | cons path paths ih =>
    rw [makeMissing, if_pos (h path List.mem_cons_self)]
    exact ih fun other hother => h other (List.mem_cons_of_mem _ hother)

/-- What making folders does. -/
theorem makeFolders_ok (h : w.makeFolders path = .ok after) :
    AddsFolders w after ∧ path ≠ "" ∧ after.Reaches path ∧ after.top.label? (after.placeOf path) = some none ∧
      ∀ above ∈ (Path.prefixes path).dropLast, (after.entry? above).isSome := by
  obtain ⟨made, hmissing, h⟩ := bind_eq_ok_iff.mp h
  obtain ⟨hfirst, hall⟩ := makeMissing_ok hmissing
  obtain ⟨hlast, hempty, hreach, hfolder⟩ := makeFolder_ok h
  exact ⟨hfirst.trans hlast, hempty, hreach, hfolder,
    fun above habove => hlast.extends_before.isSome_entry? (hall above habove)⟩

/-- Folders that were made need not be made again. -/
theorem makeFolders_again (h : w.makeFolders path = .ok after) (hlater : Extends after later) :
    later.makeFolders path = .ok later := by
  obtain ⟨-, hempty, hreach, hfolder, hall⟩ := makeFolders_ok h
  have hmissing : later.makeMissing (Path.prefixes path).dropLast = .ok later :=
    makeMissing_of_isSome fun above habove => hlater.isSome_entry? (hall above habove)
  unfold makeFolders
  simp only [hmissing, bind, Except.bind]
  refine makeFolder_of_label? hempty (hlater.reaches hreach) ?_
  rw [hlater.placeOf_eq]
  exact hlater.folder _ hfolder

/-! ## Removing -/

theorem hasFolder_iff : w.hasFolder path = true ↔
    path ≠ "" ∧ w.Reaches path ∧ w.top.label? (w.placeOf path) = some none := by
  unfold hasFolder entry?
  cases hlocate : w.locate path with
  | error fault =>
    refine iff_of_false (by simp) fun h => ?_
    have hok := locate_eq_ok_iff.mpr ⟨h.1, rfl, h.2.1⟩
    rw [hlocate] at hok
    exact absurd hok (by simp)
  | ok place =>
    obtain ⟨hempty, rfl, hreach⟩ := locate_eq_ok_iff.mp hlocate
    simp only [hempty, hreach, ne_eq, not_false_eq_true, true_and, Entry.label?]
    cases w.top.find? (w.placeOf path) with
    | none => simp
    | some entry => cases entry <;> simp [Entry.isFolder, Entry.label]

theorem placeOf_ne_nil (h : endsWithName path = true) : w.placeOf path ≠ [] := by
  unfold endsWithName at h
  obtain ⟨name, hname, hplain⟩ := Option.any_eq_true _ _ |>.mp h
  obtain ⟨first, hfirst⟩ := List.getLast?_eq_some_iff.mp hname
  rw [placeOf, hfirst, List.foldl_append, List.foldl_cons, List.foldl_nil]
  have hne : name ≠ "." ∧ name ≠ ".." := by simpa using hplain
  simp [follow, hne.1, hne.2]

theorem exists_removeTree (h : w.hasFolder path = true) : ∃ top : Entry, w.removeTree path = { w with top } ∧
    (w.top.Distinct → top.Distinct) ∧
    ∀ other, top.file? other = if w.placeOf path <+: other then none else w.top.file? other := by
  obtain ⟨hempty, hreach, hlabel⟩ := hasFolder_iff.mp h
  have hlocate := locate_eq_ok_iff.mpr ⟨hempty, rfl, hreach⟩
  obtain ⟨entry, hentry, hkind⟩ := Option.map_eq_some_iff.mp hlabel
  cases entry with
  | file content => simp [Entry.label] at hkind
  | folder entries =>
    unfold removeTree
    simp only [hlocate, hentry]
    by_cases hname : endsWithName path = true
    · rw [if_pos hname]
      exact ⟨_, rfl, fun h => h.remove _, Entry.file?_remove (placeOf_ne_nil hname)⟩
    · rw [if_neg hname]
      refine ⟨_, rfl, fun h => h.put Entry.distinct_emptyFolder _, fun other => ?_⟩
      split_ifs with hprefix
      · obtain ⟨more, rfl⟩ := hprefix
        rw [Entry.file?, Entry.label?, Entry.find?_put_append (opens_of_reaches hempty hreach)]
        exact Entry.file?_emptyFolder more
      · exact Entry.file?_put_elsewhere hprefix

theorem removeTree_eq_self (h : w.hasFolder path = false) : w.removeTree path = w := by
  unfold removeTree
  unfold hasFolder entry? at h
  cases hlocate : w.locate path with
  | error fault => rfl
  | ok place =>
    simp only [hlocate] at h
    cases hfind : w.top.find? place with
    | none => simp [hfind]
    | some entry =>
      cases entry with
      | file content => simp [hfind]
      | folder entries => simp [hfind, Entry.isFolder] at h

theorem removeTree_cases (w : Workspace) (path : String) :
    (w.hasFolder path = false ∧ w.removeTree path = w) ∨
      (w.hasFolder path = true ∧ ∃ top : Entry, w.removeTree path = { w with top } ∧
        (w.top.Distinct → top.Distinct) ∧
        ∀ other, top.file? other = if w.placeOf path <+: other then none else w.top.file? other) := by
  cases h : w.hasFolder path with
  | false => exact .inl ⟨rfl, removeTree_eq_self h⟩
  | true => exact .inr ⟨rfl, exists_removeTree h⟩

theorem removeTree_spec (w : Workspace) (path : String) :
    (w.removeTree path).here = w.here ∧ (w.top.Distinct → (w.removeTree path).top.Distinct) ∧
      ∀ other, w.top.file? other = none → (w.removeTree path).top.file? other = none := by
  obtain ⟨-, hsame⟩ | ⟨-, top, htop, hdistinct, hfile⟩ := removeTree_cases w path
  · rw [hsame]
    exact ⟨rfl, fun h => h, fun _ h => h⟩
  · rw [htop]
    refine ⟨rfl, hdistinct, fun other hnone => ?_⟩
    rw [hfile]
    split_ifs
    · rfl
    · exact hnone

/-- No file is left where a folder was. -/
theorem file?_removeTree (h : w.hasFolder path = true) (more : Location) :
    (w.removeTree path).top.file? (w.placeOf path ++ more) = none := by
  obtain ⟨hnone, -⟩ | ⟨-, top, htop, -, hfile⟩ := removeTree_cases w path
  · simp [hnone] at h
  · rw [htop, hfile, if_pos (List.prefix_append _ _)]

/-! ## Files below a folder -/

/-- The files below a folder are what is found as a file from its place on. -/
theorem mem_filesBelow_iff (hdistinct : w.top.Distinct) (hfolder : w.hasFolder path = true)
    {file : Location × FileContent} :
    file ∈ w.filesBelow path ↔ w.top.file? (w.placeOf path ++ file.1) = some file.2 := by
  obtain ⟨hempty, hreach, hlabel⟩ := hasFolder_iff.mp hfolder
  have hlocate := locate_eq_ok_iff.mpr ⟨hempty, rfl, hreach⟩
  obtain ⟨entry, hentry, hkind⟩ := Option.map_eq_some_iff.mp hlabel
  have hisFolder : entry.isFolder = true := by cases entry <;> simp_all [Entry.label, Entry.isFolder]
  have hbelow : w.filesBelow path = entry.files := by simp [filesBelow, entry?, hlocate, hentry]
  have hfile : w.top.file? (w.placeOf path ++ file.1) = entry.file? file.1 := by
    rw [Entry.file?, Entry.label?, Entry.find?_append, hentry]
    rfl
  rw [hbelow, hfile]
  exact Entry.mem_files_iff (hdistinct.of_find? hentry) hisFolder

theorem nodup_filesBelow (hdistinct : w.top.Distinct) (path : String) : ((w.filesBelow path).map (·.1)).Nodup := by
  unfold filesBelow entry?
  cases hlocate : w.locate path with
  | error fault => simp
  | ok place =>
    cases hfind : w.top.find? place with
    | none => simp [hfind]
    | some entry =>
      simp only [hfind, Option.map_some, Option.getD_some]
      exact Entry.nodup_files (hdistinct.of_find? hfind)

theorem hasFolder_of_mem_filesBelow {file : Location × FileContent} (h : file ∈ w.filesBelow path) :
    w.hasFolder path = true := by
  unfold filesBelow at h
  unfold hasFolder
  cases hentry : w.entry? path with
  | none => simp [hentry] at h
  | some entry => cases entry <;> simp_all [Entry.files, Entry.isFolder]

/-- A file below a folder has a name there, and plain names lead to it if all names are plain. -/
theorem plain_of_mem_filesBelow {Q : String → Prop} (hdistinct : w.top.Distinct)
    (hplain : w.top.Each fun names => ∀ name ∈ names, Q name) {file : Location × FileContent}
    (h : file ∈ w.filesBelow path) : file.1 ≠ [] ∧ ∀ name ∈ file.1, Q name := by
  have hfolder := hasFolder_of_mem_filesBelow h
  have hfile := (mem_filesBelow_iff hdistinct hfolder).mp h
  constructor
  · intro hnil
    rw [hnil, List.append_nil, Entry.file?, (hasFolder_iff.mp hfolder).2.2] at hfile
    exact absurd hfile (by simp)
  · intro name hname
    exact hplain.of_mem (Entry.file?_eq_some_iff.mp hfile) name (List.mem_append_right _ hname)

end ComponentDocs.Workspace

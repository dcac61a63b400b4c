import ComponentDocs.Proofs.Fields
import ComponentDocs.Workspace.Entry

/-!
# Places of a tree of folders

* `Entry.Each`, `Entry.Distinct`: what holds of the names in every folder;
* `Entry.label?`: what is at a place, without what lies below it, `Entry.file?`: the file there;
* `Entry.find?_put_append`, `Entry.label?_put`, `Entry.file?_remove`: a place after a change;
* `Entry.mem_files_iff`, `Entry.nodup_files`: the files of a tree, each once.
-/

namespace ComponentDocs.Entry

/-! ## Names in every folder -/

mutual

/-- The names in every folder have a property. -/
def Each (P : List String → Prop) : Entry → Prop
  | file _ => True
  | folder entries => P (Fields.names entries) ∧ EachOf P entries

def EachOf (P : List String → Prop) : List (String × Entry) → Prop
  | [] => True
  | (_, entry) :: rest => Each P entry ∧ EachOf P rest

end

/-- No folder has a name twice. -/
def Distinct : Entry → Prop := Each List.Nodup

variable {P : List String → Prop} {top new entry : Entry} {entries : List (String × Entry)} {place other : Location}
  {name : String} {content : FileContent}

theorem eachOf_iff : EachOf P entries ↔ ∀ field ∈ entries, field.2.Each P := by
  induction entries with
  | nil => simp [EachOf]
  | cons field rest ih => simp [EachOf, ih]

theorem each_folder_iff :
    (folder entries).Each P ↔ P (Fields.names entries) ∧ ∀ field ∈ entries, field.2.Each P := by
  rw [Each, eachOf_iff]

theorem Each.of_find? (h : top.Each P) (hfind : top.find? place = some entry) : entry.Each P := by
  fun_induction find? top place with
  | case1 top => exact Option.some.inj hfind ▸ h
  | case2 entries name rest ih =>
    obtain ⟨child, hchild, hfind⟩ := Option.bind_eq_some_iff.mp hfind
    exact ih child ((each_folder_iff.mp h).2 _ (Fields.mem_of_get? hchild)) hfind
  | case3 => exact absurd hfind (by simp)

theorem distinct_emptyFolder : emptyFolder.Distinct := each_folder_iff.mpr ⟨List.nodup_nil, by simp⟩

theorem Distinct.put (h : top.Distinct) (hnew : new.Distinct) (place : Location) : (top.put place new).Distinct := by
  induction place generalizing top with
  | nil => exact hnew
  | cons name rest ih =>
    cases top with
    | file content => exact h
    | folder entries =>
      obtain ⟨hnames, hchildren⟩ := each_folder_iff.mp h
      have hchild : ((Fields.get? entries name).getD emptyFolder).Distinct := by
        cases hget : Fields.get? entries name with
        | none => exact distinct_emptyFolder
        | some child => exact hchildren _ (Fields.mem_of_get? hget)
      refine each_folder_iff.mpr ⟨Fields.nodup_names_set hnames name _, fun field hfield => ?_⟩
      rcases Fields.mem_set hfield with rfl | hfield
      · exact ih hchild
      · exact hchildren field hfield

/-! ## Places -/

/-- What an entry is by itself: a file with what it holds, or a folder. -/
def label : Entry → Option FileContent
  | file content => some content
  | folder _ => none

/-- What is at a place, without what lies below it. -/
def label? (top : Entry) (place : Location) : Option (Option FileContent) := (top.find? place).map label

/-- What the file at a place holds. -/
def file? (top : Entry) (place : Location) : Option FileContent := (top.label? place).join

theorem file?_eq_some_iff : top.file? place = some content ↔ top.find? place = some (file content) := by
  unfold file? label?
  cases top.find? place with
  | none => simp
  | some entry => cases entry <;> simp [label]

theorem find?_append (top : Entry) (place more : Location) :
    top.find? (place ++ more) = (top.find? place).bind (find? · more) := by
  fun_induction find? top place with
  | case1 => rfl
  | case2 entries name rest ih =>
    rw [List.cons_append, find?, Option.bind_assoc]
    cases Fields.get? entries name with
    | none => rfl
    | some child => exact ih child
  | case3 => rfl

/-- Above what is there, there are folders. -/
theorem label?_of_append {more : Location} (h : top.find? (place ++ more) = some entry) (hmore : more ≠ []) :
    top.label? place = some none := by
  rw [find?_append] at h
  obtain ⟨above, habove, h⟩ := Option.bind_eq_some_iff.mp h
  cases above with
  | file content =>
    cases more with
    | nil => exact absurd rfl hmore
    | cons name more => exact absurd h (by simp [find?])
  | folder entries => simp [label?, habove, label]

theorem label?_nil (top : Entry) : top.label? [] = some top.label := by simp [label?, find?]

theorem label?_folder_cons (entries : List (String × Entry)) (name : String) (rest : Location) :
    (folder entries).label? (name :: rest) = (Fields.get? entries name).bind (label? · rest) := by
  rw [label?, find?, Option.map_bind]
  rfl

theorem file?_emptyFolder (place : Location) : emptyFolder.file? place = none := by
  cases place with
  | nil => rw [file?, label?_nil]; rfl
  | cons name rest => rw [file?, emptyFolder, label?_folder_cons]; rfl

/-- The names of folders on the way to what is there have the property of all names. -/
theorem Each.of_mem {Q : String → Prop} (h : top.Each fun names => ∀ name ∈ names, Q name)
    (hfind : top.find? place = some entry) : ∀ name ∈ place, Q name := by
  fun_induction find? top place with
  | case1 => exact fun _ hname => absurd hname List.not_mem_nil
  | case2 entries first rest ih =>
    obtain ⟨child, hchild, hfind⟩ := Option.bind_eq_some_iff.mp hfind
    obtain ⟨hnames, hchildren⟩ := each_folder_iff.mp h
    intro name hname
    rcases List.mem_cons.mp hname with rfl | hname
    · exact hnames name (Fields.mem_names_of_get? hchild)
    · exact ih child (hchildren _ (Fields.mem_of_get? hchild)) hfind name hname
  | case3 => exact absurd hfind (by simp)

/-! ## Ways to a place -/

theorem label?_dropLast (h : top.label? place = some none) : top.label? place.dropLast = some none := by
  rcases List.eq_nil_or_concat place with rfl | ⟨before, name, rfl⟩
  · exact h
  · rw [List.concat_eq_append] at h ⊢
    obtain ⟨entry, hentry, -⟩ := Option.map_eq_some_iff.mp h
    rw [List.dropLast_concat]
    exact label?_of_append hentry (by simp)

/-- The way to a place leads through folders, as far as there is anything. -/
def Opens (top : Entry) (place : Location) : Prop :=
  ∀ before after, place = before ++ after → after ≠ [] → ∀ kind, top.label? before = some kind → kind = none

theorem opens_nil (top : Entry) : top.Opens [] := by
  intro before after heq hafter
  exact absurd (List.append_eq_nil_iff.mp heq.symm).2 hafter

theorem opens_of_dropLast (h : top.label? place.dropLast = some none) : top.Opens place := by
  rintro before after rfl hafter kind hkind
  rw [List.dropLast_append_of_ne_nil hafter] at h
  by_cases hlast : after.dropLast = []
  · rw [hlast, List.append_nil, hkind] at h
    exact Option.some.inj h
  · obtain ⟨entry, hentry, -⟩ := Option.map_eq_some_iff.mp h
    rw [label?_of_append hentry hlast] at hkind
    exact (Option.some.inj hkind).symm

/-! ## Putting -/

/-- What was put at a place is there. -/
theorem find?_put_append (h : top.Opens place) (new : Entry) (more : Location) :
    (top.put place new).find? (place ++ more) = new.find? more := by
  induction place generalizing top with
  | nil => rw [List.nil_append, put]
  | cons name rest ih =>
    cases top with
    | file content =>
      have hkind := h [] (name :: rest) rfl (by simp) (some content) (label?_nil _)
      exact absurd hkind (by simp)
    | folder entries =>
      have hchild : ((Fields.get? entries name).getD emptyFolder).Opens rest := by
        rintro before after rfl hafter kind hkind
        cases hget : Fields.get? entries name with
        | none =>
          have hfile := file?_emptyFolder before
          simp only [hget, Option.getD_none] at hkind
          rwa [file?, hkind, Option.join_some] at hfile
        | some child =>
          simp only [hget, Option.getD_some] at hkind
          refine h (name :: before) after rfl hafter kind ?_
          rw [label?_folder_cons, hget]
          exact hkind
      rw [put, List.cons_append, find?, Fields.get?_modify, if_pos rfl]
      exact ih hchild

theorem put_put (top : Entry) (place : Location) (first new : Entry) :
    (top.put place first).put place new = top.put place new := by
  induction place generalizing top with
  | nil => simp only [put]
  | cons name rest ih =>
    cases top with
    | file content => rfl
    | folder entries =>
      simp only [put, Fields.modify, Fields.get?_set, if_pos, Option.getD_some, Fields.set_set, ih]

theorem label?_put {kind : Option FileContent} (h : ¬ place <+: other) (hkind : top.label? other = some kind) :
    (top.put place new).label? other = some kind := by
  induction place generalizing top other with
  | nil => exact absurd (List.nil_prefix) h
  | cons name rest ih =>
    cases top with
    | file content => exact hkind
    | folder entries =>
      cases other with
      | nil => exact hkind
      | cons first more =>
        rw [label?_folder_cons] at hkind
        rw [put, label?_folder_cons, Fields.get?_modify]
        split_ifs with hfirst
        · subst hfirst
          obtain ⟨child, hchild, hkind⟩ := Option.bind_eq_some_iff.mp hkind
          rw [hchild]
          exact ih (fun hprefix => h ((List.prefix_cons_inj first).mpr hprefix)) hkind
        · exact hkind

/-- Elsewhere, no file is made. -/
theorem file?_put_elsewhere (h : ¬ place <+: other) : (top.put place new).file? other = top.file? other := by
  induction place generalizing top other with
  | nil => exact absurd (List.nil_prefix) h
  | cons name rest ih =>
    cases top with
    | file content => rfl
    | folder entries =>
      cases other with
      | nil => rfl
      | cons first more =>
        rw [put, file?, file?, label?_folder_cons, label?_folder_cons, Fields.get?_modify]
        split_ifs with hfirst
        · subst hfirst
          have hmore : ∀ top : Entry, (top.put rest new).file? more = top.file? more := fun _ =>
            ih fun hprefix => h ((List.prefix_cons_inj first).mpr hprefix)
          cases hget : Fields.get? entries first with
          | none => exact (hmore emptyFolder).trans (file?_emptyFolder more)
          | some child => exact hmore child
        · rfl

theorem file?_put_file (h : top.Opens place) (hfolder : top.label? place ≠ some none) (content : FileContent)
    (other : Location) :
    (top.put place (file content)).file? other = if other = place then some content else top.file? other := by
  by_cases hprefix : place <+: other
  · obtain ⟨more, rfl⟩ := hprefix
    rw [file?, label?, find?_put_append h]
    cases more with
    | nil => simp [find?, label]
    | cons name more =>
      rw [if_neg (by simp)]
      cases hfile : top.file? (place ++ name :: more) with
      | none => rfl
      | some old => exact absurd (label?_of_append (file?_eq_some_iff.mp hfile) (by simp)) hfolder
  · rw [file?_put_elsewhere hprefix, if_neg]
    rintro rfl
    exact hprefix (List.prefix_refl _)

/-- An empty folder where nothing is, or in place of something without files, changes no file. -/
theorem file?_put_emptyFolder (h : top.Opens place) (hnone : ∀ more, top.file? (place ++ more) = none)
    (other : Location) : (top.put place emptyFolder).file? other = top.file? other := by
  by_cases hprefix : place <+: other
  · obtain ⟨more, rfl⟩ := hprefix
    rw [file?, label?, find?_put_append h, hnone]
    exact file?_emptyFolder more
  · exact file?_put_elsewhere hprefix

/-! ## Removing -/

/-- Removing takes away what is at the place and below, and makes no file. -/
theorem file?_remove (hplace : place ≠ []) (other : Location) :
    (top.remove place).file? other = if place <+: other then none else top.file? other := by
  fun_induction remove top place generalizing other with
  | case1 entries name =>
    cases other with
    | nil => rw [if_neg (by simp)]; rfl
    | cons first more =>
      simp only [file?, label?_folder_cons, Fields.get?_erase, List.cons_prefix_cons]
      by_cases hfirst : first = name
      · simp [hfirst]
      · rw [if_neg hfirst, if_neg fun h => hfirst h.1.symm]
  | case2 entries name rest hrest child hchild ih =>
    have hrest' : rest ≠ [] := fun h => hrest h
    cases other with
    | nil => rw [if_neg (by simp)]; rfl
    | cons first more =>
      simp only [file?, label?_folder_cons, Fields.get?_set, List.cons_prefix_cons]
      by_cases hfirst : first = name
      · subst hfirst
        rw [if_pos rfl, hchild]
        simpa [file?] using ih hrest' more
      · rw [if_neg hfirst, if_neg fun h => hfirst h.1.symm]
  | case3 entries name rest hrest hchild =>
    cases other with
    | nil => rw [if_neg (by simp)]
    | cons first more =>
      split_ifs with hprefix
      · rw [List.cons_prefix_cons] at hprefix
        rw [file?, label?_folder_cons, ← hprefix.1, hchild]
        rfl
      · rfl
  | case4 place top hsingle hcons =>
    split_ifs with hprefix
    · cases top with
      | file content =>
        obtain ⟨more, rfl⟩ := hprefix
        cases place with
        | nil => exact absurd rfl hplace
        | cons name rest => rfl
      | folder entries =>
        rcases place with _ | ⟨name, _ | ⟨next, rest⟩⟩
        · exact absurd rfl hplace
        · exact absurd rfl (hsingle entries name rfl)
        · exact absurd rfl (hcons entries name _ rfl)
    · rfl

theorem Distinct.remove (h : top.Distinct) (place : Location) : (top.remove place).Distinct := by
  fun_induction Entry.remove top place with
  | case1 entries name =>
    obtain ⟨hnames, hchildren⟩ := each_folder_iff.mp h
    exact each_folder_iff.mpr ⟨hnames.sublist (Fields.names_erase_sublist entries name),
      fun field hfield => hchildren field (List.mem_of_mem_filter hfield)⟩
  | case2 entries name rest hrest child hchild ih =>
    obtain ⟨hnames, hchildren⟩ := each_folder_iff.mp h
    refine each_folder_iff.mpr ⟨Fields.nodup_names_set hnames name _, fun field hfield => ?_⟩
    rcases Fields.mem_set hfield with rfl | hfield
    · exact ih (hchildren _ (Fields.mem_of_get? hchild))
    · exact hchildren field hfield
  | case3 => exact h
  | case4 => exact h

/-! ## All files -/

theorem file?_folder_cons_iff {rest : Location} :
    (folder entries).file? (name :: rest) = some content ↔
      ∃ child, Fields.get? entries name = some child ∧ child.file? rest = some content := by
  rw [file?, label?_folder_cons]
  cases Fields.get? entries name <;> simp [file?]

mutual

theorem mem_filesFrom_iff {here : Location} {top : Entry} (h : top.Distinct) {file : Location × FileContent} :
    file ∈ filesFrom here top ↔ ∃ more, file.1 = here ++ more ∧ top.file? more = some file.2 := by
  cases top with
  | file content =>
    rw [filesFrom, List.mem_singleton]
    constructor
    · rintro rfl
      exact ⟨[], by simp, rfl⟩
    · rintro ⟨more, hplace, hfile⟩
      rw [file?_eq_some_iff] at hfile
      cases more with
      | nil => exact Prod.ext (by simpa using hplace) (by simpa [find?] using hfile.symm)
      | cons name more => simp [find?] at hfile
  | folder entries =>
    rw [filesFrom, mem_filesOf_iff (each_folder_iff.mp h).1 (eachOf_iff.mpr (each_folder_iff.mp h).2)]
    constructor
    · rintro ⟨name, rest, hplace, hfile⟩
      exact ⟨name :: rest, hplace, hfile⟩
    · rintro ⟨more, hplace, hfile⟩
      cases more with
      | nil => simp [file?, label?_nil, label] at hfile
      | cons name rest => exact ⟨name, rest, hplace, hfile⟩

theorem mem_filesOf_iff {here : Location} {entries : List (String × Entry)} (hnames : (Fields.names entries).Nodup)
    (h : EachOf List.Nodup entries) {file : Location × FileContent} :
    file ∈ filesOf here entries ↔
      ∃ name rest, file.1 = here ++ name :: rest ∧ (folder entries).file? (name :: rest) = some file.2 := by
  rcases entries with _ | ⟨⟨first, child⟩, entries⟩
  · simp [filesOf, file?_folder_cons_iff, Fields.get?]
  · rw [Fields.names_cons, List.nodup_cons] at hnames
    rw [EachOf] at h
    rw [filesOf, List.mem_append, mem_filesFrom_iff h.1, mem_filesOf_iff hnames.2 h.2]
    simp only [file?_folder_cons_iff, Fields.get?_cons]
    constructor
    · rintro (⟨more, hplace, hfile⟩ | ⟨name, rest, hplace, found, hfound, hfile⟩)
      · exact ⟨first, more, by simp [hplace], child, by simp, hfile⟩
      · have hne : first ≠ name := by
          rintro rfl
          exact hnames.1 (Fields.mem_names_of_get? hfound)
        exact ⟨name, rest, hplace, found, by rwa [if_neg hne], hfile⟩
    · rintro ⟨name, rest, hplace, found, hfound, hfile⟩
      split_ifs at hfound with hname
      · subst hname
        cases hfound
        exact Or.inl ⟨rest, by simp [hplace], hfile⟩
      · exact Or.inr ⟨name, rest, hplace, found, hfound, hfile⟩

end

/-- The files of a folder are what is found as a file below it. -/
theorem mem_files_iff (h : top.Distinct) (hfolder : top.isFolder = true) {file : Location × FileContent} :
    file ∈ top.files ↔ top.file? file.1 = some file.2 := by
  cases top with
  | file content => exact absurd hfolder (by simp [isFolder])
  | folder entries =>
    have hmem : file ∈ filesFrom [] (folder entries) ↔
        ∃ more, file.1 = [] ++ more ∧ (folder entries).file? more = some file.2 := mem_filesFrom_iff h
    rw [files]
    simpa [filesFrom] using hmem

mutual

theorem nodup_filesFrom (here : Location) {top : Entry} (h : top.Distinct) : ((filesFrom here top).map (·.1)).Nodup := by
  cases top with
  | file content => simp [filesFrom]
  | folder entries =>
    exact nodup_filesOf here (each_folder_iff.mp h).1 (eachOf_iff.mpr (each_folder_iff.mp h).2)

theorem nodup_filesOf (here : Location) {entries : List (String × Entry)} (hnames : (Fields.names entries).Nodup)
    (h : EachOf List.Nodup entries) : ((filesOf here entries).map (·.1)).Nodup := by
  rcases entries with _ | ⟨⟨first, child⟩, entries⟩
  · simp [filesOf]
  · rw [Fields.names_cons, List.nodup_cons] at hnames
    rw [EachOf] at h
    rw [filesOf, List.map_append, List.nodup_append]
    refine ⟨nodup_filesFrom _ h.1, nodup_filesOf here hnames.2 h.2, ?_⟩
    intro place hplace other hother heq
    obtain ⟨file, hfile, rfl⟩ := List.mem_map.mp hplace
    obtain ⟨later, hlater, rfl⟩ := List.mem_map.mp hother
    obtain ⟨more, hmore, -⟩ := (mem_filesFrom_iff h.1).mp hfile
    obtain ⟨name, rest, hrest, hfound⟩ := (mem_filesOf_iff hnames.2 h.2).mp hlater
    obtain ⟨found, hget, -⟩ := file?_folder_cons_iff.mp hfound
    rw [hmore, hrest, List.append_assoc, List.append_cancel_left_eq, List.singleton_append, List.cons.injEq] at heq
    rw [← heq.1] at hget
    exact hnames.1 (Fields.mem_names_of_get? hget)

end

theorem nodup_files (h : top.Distinct) : (top.files.map (·.1)).Nodup := by
  cases top with
  | file content => simp [files]
  | folder entries => exact nodup_filesFrom [] h

end ComponentDocs.Entry

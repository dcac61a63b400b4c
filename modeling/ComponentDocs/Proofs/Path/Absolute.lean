import ComponentDocs.Proofs.Path.Names

/-!
# Paths below a folder

* `Path.absoluteNames`: the names along the absolute form of a path;
* `Path.absolute_inFolder_tidy`: a path below the tidy form of a folder has the same absolute form as below the folder;
* `Path.relative_eq`: the way from a folder to a path below it is what the path has more.
-/

namespace ComponentDocs.Path

variable {base path root folder : String}

/-! ## Slashes at the start -/

theorem eq_slash_of_mem_leadingSlashes {c : Char} (h : c ∈ leadingSlashes path) : c = '/' := by
  unfold leadingSlashes at h
  split at h <;> simp_all

theorem leadingSlashes_eq_nil_iff : leadingSlashes path = [] ↔ isAbsolute path = false := by
  unfold leadingSlashes isAbsolute
  split <;> rename_i h <;> simp_all
  cases hlist : path.toList with
  | nil => simp
  | cons c cs =>
    have hc : c ≠ '/' := fun hc => h cs (by rw [hlist, hc])
    simp [hc]

theorem leadingSlashes_join (hbase : isAbsolute base = true) (hpath : isAbsolute path = false) :
    leadingSlashes (join base path) = leadingSlashes base := by
  have hfirst : ∀ cs, path.toList ≠ '/' :: cs := fun cs hcs => by simp [isAbsolute, hcs] at hpath
  have hne : base ≠ "" := by rintro rfl; simp [isAbsolute] at hbase
  unfold join
  rw [if_neg (by simp [hpath])]
  by_cases hlast : base.toList.getLast? = some '/'
  · rw [if_pos (Or.inr hlast)]
    unfold leadingSlashes
    rw [String.toList_append]
    rcases hlist : base.toList with _ | ⟨a, _ | ⟨b, _ | ⟨c, rest⟩⟩⟩
    · simp_all
    · cases hcs : path.toList <;> simp_all
    · cases hcs : path.toList <;> simp_all [isAbsolute]
    · by_cases hb : b = '/' <;> by_cases hc : c = '/' <;> simp_all [isAbsolute]
  · rw [if_neg (by simp [hne, hlast])]
    have hslash : ("/" : String).toList = ['/'] := rfl
    unfold leadingSlashes
    rw [String.toList_append, String.toList_append, hslash, List.append_assoc]
    rcases hlist : base.toList with _ | ⟨a, _ | ⟨b, _ | ⟨c, rest⟩⟩⟩
    · simp_all
    · simp_all [isAbsolute]
    · simp_all [isAbsolute]
    · by_cases hb : b = '/' <;> by_cases hc : c = '/' <;> simp_all [isAbsolute]

/-! ## Absolute forms -/

/-- The names along the absolute form of a path. -/
def absoluteNames (folder path : String) : List (List Char) :=
  resolve true ((if isAbsolute path then [] else segments folder) ++ segments path)

/-- The slashes at the start of the absolute form of a path. -/
def absoluteSlashes (folder path : String) : List Char :=
  leadingSlashes (if isAbsolute path then path else folder)

theorem isPlain_of_mem_absoluteNames {name : List Char} (h : name ∈ absoluteNames folder path) : IsPlain name := by
  refine isPlain_of_mem_resolve (fun other hother => ?_) name h
  rcases List.mem_append.mp hother with hother | hother
  · split_ifs at hother with habs
    · exact absurd hother List.not_mem_nil
    · exact isName_of_mem_segments hother
  · exact isName_of_mem_segments hother

theorem absoluteSlashes_ne_nil (hfolder : isAbsolute folder = true) : absoluteSlashes folder path ≠ [] := by
  unfold absoluteSlashes
  rw [Ne, leadingSlashes_eq_nil_iff]
  split_ifs with habs <;> simp [*]

theorem absolute_eq (hfolder : isAbsolute folder = true) :
    absolute folder path =
      String.ofList (absoluteSlashes folder path ++ Text.join ['/'] (absoluteNames folder path)) := by
  have hslashes : absoluteSlashes folder path ≠ [] := absoluteSlashes_ne_nil hfolder
  have hpath : leadingSlashes (if isAbsolute path then path else join folder path) = absoluteSlashes folder path ∧
      segments (if isAbsolute path then path else join folder path) =
        (if isAbsolute path then [] else segments folder) ++ segments path := by
    unfold absoluteSlashes
    split_ifs with habs
    · simp
    · rw [Bool.not_eq_true] at habs
      exact ⟨leadingSlashes_join hfolder habs, segments_join folder habs⟩
  unfold absolute normalize
  dsimp only
  rw [hpath.1, hpath.2, if_neg (by simp [hslashes])]
  have hrooted : (!(absoluteSlashes folder path).isEmpty) = true := by simpa using hslashes
  rw [hrooted]
  rfl

theorem segments_absolute (hfolder : isAbsolute folder = true) :
    segments (absolute folder path) = absoluteNames folder path := by
  rw [absolute_eq hfolder]
  apply segments_ofList_join
  · intro c hc
    unfold absoluteSlashes at hc
    exact eq_slash_of_mem_leadingSlashes hc
  · exact fun name hname => (isPlain_of_mem_absoluteNames hname).isName

theorem isAbsolute_absolute (hfolder : isAbsolute folder = true) : isAbsolute (absolute folder path) = true := by
  rw [absolute_eq hfolder]
  cases hslashes : absoluteSlashes folder path with
  | nil => exact absurd hslashes (absoluteSlashes_ne_nil hfolder)
  | cons c cs =>
    have hc : c ∈ absoluteSlashes folder path := hslashes ▸ List.mem_cons_self
    unfold absoluteSlashes at hc
    simp [isAbsolute, eq_slash_of_mem_leadingSlashes hc]

theorem absoluteNames_absolute (hfolder : isAbsolute folder = true) :
    absoluteNames folder (absolute folder path) = absoluteNames folder path := by
  have hnames : ∀ name ∈ (if isAbsolute path then [] else segments folder) ++ segments path, IsName name := by
    intro name hname
    rcases List.mem_append.mp hname with hname | hname
    · split_ifs at hname
      · exact absurd hname List.not_mem_nil
      · exact isName_of_mem_segments hname
    · exact isName_of_mem_segments hname
  unfold absoluteNames
  rw [if_pos (isAbsolute_absolute hfolder), segments_absolute hfolder, List.nil_append, absoluteNames,
    resolve_resolve hnames]

/-! ## Tidy folders -/

theorem head_join_ne_slash {names : List (List Char)} (h : ∀ name ∈ names, IsName name) (cs : List Char) :
    Text.join ['/'] names ≠ '/' :: cs := by
  rcases names with _ | ⟨name, rest⟩
  · simp [Text.join]
  · obtain ⟨hne, hslash⟩ := h name List.mem_cons_self
    rcases name with _ | ⟨c, name⟩
    · exact absurd rfl hne
    · have hc : c ≠ '/' := fun hc => hslash (hc ▸ List.mem_cons_self)
      cases rest <;> simp [Text.join, hc]

theorem leadingSlashes_ofList_join {names : List (List Char)} (h : ∀ name ∈ names, IsName name) (path : String) :
    leadingSlashes (String.ofList (leadingSlashes path ++ Text.join ['/'] names)) = leadingSlashes path := by
  have hhead := head_join_ne_slash h
  have hslashes : leadingSlashes path = [] ∨ leadingSlashes path = ['/'] ∨ leadingSlashes path = ['/', '/'] := by
    unfold leadingSlashes
    split <;> simp
  generalize Text.join ['/'] names = text at hhead
  rcases hslashes with hslashes | hslashes | hslashes <;> rw [hslashes] <;>
    simp only [leadingSlashes, String.toList_ofList, List.cons_append, List.nil_append] <;>
    split <;> simp_all

/-- A tidy path has the names and slashes of the path, if any are left. -/
theorem tidy_cases (root : String) :
    (tidy root = "." ∧ leadingSlashes root = [] ∧ (segments root).filter (· ≠ here) = []) ∨
      (tidy root ≠ "" ∧ tidy root ≠ "." ∧ leadingSlashes (tidy root) = leadingSlashes root ∧
        segments (tidy root) = (segments root).filter (· ≠ here)) := by
  have hnames : ∀ name ∈ (segments root).filter (· ≠ here), IsName name :=
    fun name hname => isName_of_mem_segments (List.mem_of_mem_filter hname)
  have hsegments := segments_ofList_join (fun c (hc : c ∈ leadingSlashes root) => eq_slash_of_mem_leadingSlashes hc) hnames
  by_cases htext : leadingSlashes root ++ Text.join ['/'] ((segments root).filter (· ≠ here)) = []
  · left
    rw [htext] at hsegments
    refine ⟨by rw [tidy]; simp only [htext]; rfl, (List.append_eq_nil_iff.mp htext).1, hsegments.symm⟩
  · right
    have htidy : tidy root =
        String.ofList (leadingSlashes root ++ Text.join ['/'] ((segments root).filter (· ≠ here))) := by
      rw [tidy]
      simp only [htext, if_false]
    rw [← htidy] at hsegments
    refine ⟨?_, ?_, htidy ▸ leadingSlashes_ofList_join hnames root, hsegments⟩
    · intro hempty
      have hlist := congrArg String.toList (htidy.symm.trans hempty)
      rw [String.toList_ofList] at hlist
      exact htext hlist
    · intro hdot
      have hhere : here ∈ (segments root).filter (· ≠ here) := by
        rw [← hsegments, hdot]
        decide
      simp at hhere

theorem isAbsolute_tidy (root : String) : isAbsolute (tidy root) = isAbsolute root := by
  rcases tidy_cases root with ⟨htidy, hslashes, -⟩ | ⟨-, -, hslashes, -⟩
  · rw [htidy, leadingSlashes_eq_nil_iff.mp hslashes]
    rfl
  · have hiff : leadingSlashes (tidy root) = [] ↔ isAbsolute (tidy root) = false := leadingSlashes_eq_nil_iff
    rw [hslashes, leadingSlashes_eq_nil_iff] at hiff
    rw [Bool.eq_iff_iff, ← not_iff_not, Bool.not_eq_true, Bool.not_eq_true]
    exact hiff.symm

theorem absoluteNames_congr {other : String} (habs : isAbsolute path = isAbsolute other)
    (hnames : (segments path).filter (· ≠ here) = (segments other).filter (· ≠ here)) :
    absoluteNames folder path = absoluteNames folder other := by
  unfold absoluteNames
  rw [← resolve_filter_here, List.filter_append, habs, hnames, ← List.filter_append, resolve_filter_here]

theorem filter_segments_tidy (root : String) :
    (segments (tidy root)).filter (· ≠ here) = (segments root).filter (· ≠ here) := by
  rcases tidy_cases root with ⟨htidy, -, hnames⟩ | ⟨-, -, -, hnames⟩
  · rw [htidy, hnames]
    decide
  · rw [hnames, List.filter_filter]
    simp

theorem absoluteNames_tidy (folder root : String) : absoluteNames folder (tidy root) = absoluteNames folder root :=
  absoluteNames_congr (isAbsolute_tidy root) (filter_segments_tidy root)

section

variable {rel : String} (hroot : root ≠ "") (hrel : isAbsolute rel = false)

include hroot hrel

/-- What is put into a tidy folder is found below the folder itself. -/
theorem absolute_inFolder_tidy (hfolder : isAbsolute folder = true) :
    absolute folder (inFolder (tidy root) rel) = absolute folder (join root rel) := by
  have hjoin := segments_join root hrel
  have habs := isAbsolute_join hroot hrel
  suffices hparts : absoluteSlashes folder (inFolder (tidy root) rel) = absoluteSlashes folder (join root rel) ∧
      absoluteNames folder (inFolder (tidy root) rel) = absoluteNames folder (join root rel) by
    rw [absolute_eq hfolder, absolute_eq hfolder, hparts.1, hparts.2]
  unfold absoluteSlashes inFolder
  rcases tidy_cases root with ⟨htidy, hslashes, hnames⟩ | ⟨hne, hdot, hslashes, hnames⟩
  · have hlow : isAbsolute root = false := leadingSlashes_eq_nil_iff.mp hslashes
    rw [if_pos htidy]
    refine ⟨by simp [habs, hlow, hrel], absoluteNames_congr (by rw [habs, hlow, hrel]) ?_⟩
    rw [hjoin, List.filter_append, hnames, List.nil_append]
  · have hsame : isAbsolute (join (tidy root) rel) = isAbsolute (join root rel) := by
      rw [isAbsolute_join hne hrel, habs, isAbsolute_tidy]
    rw [if_neg hdot]
    constructor
    · rw [hsame]
      split_ifs with hup
      · rw [habs] at hup
        rw [leadingSlashes_join ((isAbsolute_tidy root).trans hup) hrel, leadingSlashes_join hup hrel, hslashes]
      · rfl
    · apply absoluteNames_congr hsame
      rw [segments_join (tidy root) hrel, hjoin, List.filter_append, List.filter_append, filter_segments_tidy]

/-- Plain names lead down from the folder. -/
theorem absoluteNames_join (hplain : ∀ name ∈ segments rel, IsPlain name) :
    absoluteNames folder (join root rel) = absoluteNames folder root ++ segments rel := by
  unfold absoluteNames
  rw [isAbsolute_join hroot hrel, segments_join root hrel, ← List.append_assoc, resolve_append _ hplain]

end

/-! ## The way from a folder -/

theorem wayTo_append (names more : List (List Char)) : wayTo names (names ++ more) = more := by
  have hshared : sharedLength names (names ++ more) = names.length := by
    induction names with
    | nil => cases more <;> rfl
    | cons name names ih => simp [sharedLength, ih]
  simp [wayTo, hshared]

/-- Seen from a folder, what is below it is the names that lead there. -/
theorem relative_eq {more : List (List Char)} (hfolder : isAbsolute folder = true) (hmore : more ≠ [])
    (h : absoluteNames folder path = absoluteNames folder root ++ more) :
    relative folder path root = String.ofList (Text.join ['/'] more) := by
  unfold relative
  rw [segments_absolute hfolder, segments_absolute hfolder, h, wayTo_append]
  cases more with
  | nil => exact absurd rfl hmore
  | cons name more => rfl

end ComponentDocs.Path

import ComponentDocs.Graph.FilePass
import ComponentDocs.Proofs.Lists
import ComponentDocs.Proofs.Path.Absolute
import Mathlib.Data.List.TakeWhile

/-!
# Paths that start with the name of the repository

The identifier of a file is its path as it is seen from the folder of the repository, with the name of that folder in
front. Seen from the parent of the folder, it leads back to the file.

* `Path.resolve_append_wayTo`: the way from some names to others leads from the first to the others;
* `Path.folder_cases`, `Path.segments_folder_append`: the names of a path are those of its folder and its own;
* `Path.IsRooted`: a path that starts at the root with one slash, without backslashes;
* `Path.IsRooted.normalize_repositoryPath`: where the path from the name of the repository leads;
* **`fileRecord_id_determines`**: the identifier of a file determines its absolute path.
-/

namespace ComponentDocs

namespace Path

/-! ## The way from names to names -/

section

variable {rooted : Bool} {start target names : List (List Char)}

theorem take_sharedLength (start target : List (List Char)) :
    start.take (sharedLength start target) = target.take (sharedLength start target) ∧
      sharedLength start target ≤ start.length := by
  fun_induction sharedLength start target with
  | case1 a as bs ih =>
    rw [List.take_succ_cons, List.take_succ_cons, ih.1]
    exact ⟨rfl, Nat.succ_le_succ ih.2⟩
  | case2 => exact ⟨rfl, Nat.zero_le _⟩
  | case3 => exact ⟨rfl, Nat.zero_le _⟩

theorem foldl_push_above (stack : List (List Char)) (h : ∀ name ∈ stack, IsPlain name) (count : ℕ) :
    (List.replicate count above).foldl (push true) stack = stack.drop count := by
  induction count generalizing stack with
  | zero => rfl
  | succ count ih =>
    have hpush : push true stack above = stack.drop 1 := by
      cases stack with
      | nil => rfl
      | cons top rest =>
        have htop : top ≠ above := (h top List.mem_cons_self).ne_above
        exact if_neg htop
    rw [List.replicate_succ, List.foldl_cons, hpush, ih _ fun name hname => h name (List.mem_of_mem_drop hname),
      List.drop_drop, Nat.add_comm]

/-- Steps up from plain names take back the last of them. -/
theorem resolve_append_above (h : ∀ name ∈ start, IsPlain name) (count : ℕ) :
    resolve true (start ++ List.replicate count above) = start.take (start.length - count) := by
  have hreverse : ∀ name ∈ start.reverse, IsPlain name := fun name hname => h name (List.mem_reverse.mp hname)
  rw [resolve, List.foldl_append, foldl_push_of_isPlain [] h, List.append_nil, foldl_push_above _ hreverse,
    List.drop_reverse, List.reverse_reverse]

/-- **The way from some names to others leads from the first to the others.** -/
theorem resolve_append_wayTo (hstart : ∀ name ∈ start, IsPlain name) (htarget : ∀ name ∈ target, IsPlain name) :
    resolve true (start ++ wayTo start target) = target := by
  obtain ⟨hshared, hle⟩ := take_sharedLength start target
  have hdrop : ∀ name ∈ target.drop (sharedLength start target), IsPlain name := fun name hname =>
    htarget name (List.mem_of_mem_drop hname)
  rw [wayTo, ← List.append_assoc, resolve_append _ hdrop, resolve_append_above hstart, Nat.sub_sub_self hle, hshared,
    List.take_append_drop]

theorem resolve_append_here (names : List (List Char)) : resolve rooted (names ++ [here]) = resolve rooted names := by
  rw [resolve, List.foldl_append]
  rfl

theorem mem_wayTo {name : List Char} (h : name ∈ wayTo start target) : name = above ∨ name ∈ target := by
  rcases List.mem_append.mp h with hup | hdown
  · exact Or.inl (List.eq_of_mem_replicate hup)
  · exact Or.inr (List.mem_of_mem_drop hdown)

theorem mem_push {name first : List Char} {stack : List (List Char)} (h : name ∈ push rooted stack first) :
    name = first ∨ name ∈ stack := by
  unfold push at h
  by_cases hhere : first = [] ∨ first = here
  · rw [if_pos hhere] at h
    exact Or.inr h
  rw [if_neg hhere] at h
  by_cases habove : first ≠ above
  · rw [if_pos habove] at h
    exact List.mem_cons.mp h
  rw [if_neg habove] at h
  rw [ne_eq, not_not] at habove
  cases stack with
  | nil => cases rooted <;> simp_all
  | cons top rest =>
    simp only at h
    split_ifs at h
    · exact (List.mem_cons.mp h).imp_left fun heq => heq.trans habove.symm
    · exact Or.inr (List.mem_cons_of_mem _ h)

theorem mem_of_mem_resolve {name : List Char} (h : name ∈ resolve rooted names) : name ∈ names := by
  have hfold : ∀ stack, name ∈ names.foldl (push rooted) stack → name ∈ stack ∨ name ∈ names := by
    clear h
    induction names with
    | nil => exact fun stack hstack => Or.inl hstack
    | cons first rest ih =>
      intro stack hname
      rcases ih _ hname with hpush | hrest
      · exact (mem_push hpush).elim (fun heq => Or.inr (heq ▸ List.mem_cons_self)) Or.inl
      · exact Or.inr (List.mem_cons_of_mem _ hrest)
  exact (hfold [] (List.mem_reverse.mp h)).resolve_left List.not_mem_nil

end

/-! ## Folder and name -/

section

variable {path : String} {cs slashes : List Char}

theorem segments_append_slashes (base : String) (h : ∀ c ∈ slashes, c = '/') :
    segments (base ++ String.ofList slashes) = segments base := by
  induction slashes generalizing base with
  | nil => rw [String.ofList_nil, String.append_empty]
  | cons c slashes ih =>
    have hnone : segments (String.ofList slashes) = segments "" := by
      simpa using ih "" fun c hc => h c (List.mem_cons_of_mem _ hc)
    have hslash : String.ofList ('/' :: slashes) = "/" ++ String.ofList slashes := by
      rw [← String.toList_inj]
      simp
    rw [h c List.mem_cons_self, hslash, ← String.append_assoc, segments_append_slash, hnone]
    exact List.append_nil _

theorem slash_notMem_baseName (path : String) : '/' ∉ (baseName path).toList := by
  rw [baseName, String.toList_ofList, List.mem_reverse]
  exact fun h => absurd (List.mem_takeWhile_imp h) (by decide)

theorem toList_eq_append_baseName (path : String) :
    path.toList = (path.toList.reverse.dropWhile (· ≠ '/')).reverse ++ (baseName path).toList := by
  rw [baseName, String.toList_ofList, ← List.reverse_append, List.takeWhile_append_dropWhile, List.reverse_reverse]

/-- A path without slashes is its own name; otherwise slashes stand between the folder and the name, or the folder
is made of slashes only. -/
theorem folder_cases (path : String) :
    (folder path = "" ∧ '/' ∉ path.toList ∧ baseName path = path) ∨
      ((folder path).toList.getLast? = some '/' ∧ path = folder path ++ baseName path) ∨
      (folder path ≠ "" ∧ ∃ slashes, (∀ c ∈ slashes, c = '/') ∧
        path = folder path ++ String.ofList slashes ++ "/" ++ baseName path) := by
  have hpath := toList_eq_append_baseName path
  rw [folder]
  rcases dropWhile_cases path.toList.reverse '/' with hhead | ⟨rest, hhead⟩ <;> rw [hhead] at hpath ⊢
  · rw [List.reverse_nil, List.nil_append] at hpath
    have hname : baseName path = path := String.toList_inj.mp hpath.symm
    exact Or.inl ⟨rfl, hname ▸ slash_notMem_baseName path, hname⟩
  have hdrop : ('/' :: rest).dropWhile (· = '/') = rest.dropWhile (· = '/') := List.dropWhile_cons_of_pos (by decide)
  have hrest : rest.takeWhile (· = '/') ++ rest.dropWhile (· = '/') = rest := List.takeWhile_append_dropWhile
  rw [hdrop]
  cases hmore : rest.dropWhile (· = '/') with
  | nil =>
    refine Or.inr (Or.inl ⟨?_, ?_⟩)
    · rw [String.toList_ofList, List.getLast?_reverse]
      rfl
    · rw [← String.toList_inj, String.toList_append, String.toList_ofList]
      exact hpath
  | cons d more =>
    rw [hmore] at hrest
    refine Or.inr (Or.inr ⟨by simp, (rest.takeWhile (· = '/')).reverse, fun c hc => ?_, ?_⟩)
    · simpa using List.mem_takeWhile_imp (List.mem_reverse.mp hc)
    · rw [← String.toList_inj, hpath]
      conv_lhs => rw [← hrest]
      simp

/-- **The names of a path are those of its folder and its own.** -/
theorem segments_folder_append (path : String) : segments (folder path) ++ segments (baseName path) = segments path := by
  rcases folder_cases path with ⟨hfolder, -, hname⟩ | ⟨hlast, hpath⟩ | ⟨-, slashes, hslashes, hpath⟩
  · rw [hfolder, hname]
    rfl
  · conv_rhs => rw [hpath, segments_append hlast]
  · conv_rhs => rw [hpath, segments_append_slash, segments_append_slashes _ hslashes]

theorem mem_of_mem_baseName {c : Char} (h : c ∈ (baseName path).toList) : c ∈ path.toList := by
  rw [baseName, String.toList_ofList, List.mem_reverse] at h
  exact List.mem_reverse.mp ((List.takeWhile_prefix _).subset h)

theorem exists_folder_append (hpath : '/' ∈ path.toList) :
    folder path ≠ "" ∧ ∃ more, path = folder path ++ more := by
  rcases folder_cases path with ⟨-, hslash, -⟩ | ⟨hlast, heq⟩ | ⟨hne, slashes, -, heq⟩
  · exact absurd hpath hslash
  · refine ⟨?_, _, heq⟩
    intro hempty
    rw [hempty] at hlast
    exact absurd hlast (by decide)
  · rw [String.append_assoc, String.append_assoc] at heq
    exact ⟨hne, _, heq⟩

theorem leadingSlashes_of_toList (hpath : path.toList = '/' :: cs) (hcs : ∀ rest, cs ≠ '/' :: rest) :
    leadingSlashes path = ['/'] := by
  unfold leadingSlashes
  rw [hpath]
  split
  · rename_i h
    exact absurd (List.cons.inj h).2 (hcs _)
  · rename_i h
    exact absurd (List.cons.inj h).2 (hcs _)
  · rfl
  · rename_i h
    exact absurd rfl (h cs)

theorem mem_of_mem_segments {name : List Char} {c : Char} (hname : name ∈ segments path) (hc : c ∈ name) :
    c ∈ path.toList := by
  have hpart : name <:+: Text.join ['/'] (Text.splitAt '/' path.toList) := Text.infix_join (List.mem_of_mem_filter hname)
  rw [Text.join_splitAt] at hpart
  exact hpart.subset hc

theorem notMem_join_slash {names : List (List Char)} {c : Char} (hc : c ≠ '/') (h : ∀ name ∈ names, c ∉ name) :
    c ∉ Text.join ['/'] names := by
  fun_induction Text.join ['/'] names with
  | case1 => exact List.not_mem_nil
  | case2 name => exact h name List.mem_cons_self
  | case3 name rest _ ih =>
    have hrest := ih fun other hother => h other (List.mem_cons_of_mem _ hother)
    simp [h name List.mem_cons_self, hc, hrest]

theorem forwardSlashes_eq_self (h : '\\' ∉ path.toList) : forwardSlashes path = path := by
  have hsame : ∀ c ∈ path.toList, (if c = '\\' then '/' else c) = id c := by
    intro c hc
    exact if_neg (ne_of_mem_of_not_mem hc h)
  rw [forwardSlashes, List.map_congr_left hsame, List.map_id, String.ofList_toList]

end

/-! ## Paths from the root -/

/-- The path starts at the root with one slash, as far as its normal form goes, and holds no backslash. -/
structure IsRooted (path : String) : Prop where
  leadingSlashes : leadingSlashes path = ['/']
  backslash : '\\' ∉ path.toList

instance (path : String) : Decidable (IsRooted path) :=
  decidable_of_iff (leadingSlashes path = ['/'] ∧ '\\' ∉ path.toList)
    ⟨fun h => ⟨h.1, h.2⟩, fun h => ⟨h.leadingSlashes, h.backslash⟩⟩

/-- The names that lead from the root to the path. -/
def rootedNames (path : String) : List (List Char) := resolve true (segments path)

theorem isPlain_of_mem_rootedNames {path : String} {name : List Char} (h : name ∈ rootedNames path) : IsPlain name :=
  isPlain_of_mem_resolve (fun _ hname => isName_of_mem_segments hname) name h

theorem normalize_of_leadingSlashes {path : String} (h : leadingSlashes path = ['/']) :
    normalize path = String.ofList (['/'] ++ Text.join ['/'] (rootedNames path)) := by
  unfold normalize
  dsimp only
  rw [h, if_neg (by simp)]
  rfl

namespace IsRooted

variable {root path : String} (hroot : IsRooted root) (hpath : IsRooted path)

include hpath

theorem isAbsolute : isAbsolute path = true := by
  have hne : Path.leadingSlashes path ≠ [] := by simp [hpath.leadingSlashes]
  rwa [Ne, leadingSlashes_eq_nil_iff, Bool.not_eq_false] at hne

theorem ne_empty : path ≠ "" := by
  rintro rfl
  exact absurd hpath.leadingSlashes (by decide)

theorem normalize_eq : Path.normalize path = String.ofList (['/'] ++ Text.join ['/'] (rootedNames path)) :=
  normalize_of_leadingSlashes hpath.leadingSlashes

theorem absolute_eq (folder : String) : absolute folder path = Path.normalize path := by
  rw [absolute, if_pos hpath.isAbsolute]

theorem segments_normalize : segments (Path.normalize path) = rootedNames path := by
  rw [hpath.normalize_eq]
  exact segments_ofList_join (by simp) fun name hname => (isPlain_of_mem_rootedNames hname).isName

theorem rootedNames_normalize : rootedNames (Path.normalize path) = rootedNames path := by
  rw [rootedNames, hpath.segments_normalize]
  exact resolve_resolve fun name hname => isName_of_mem_segments hname

theorem backslash_notMem {name : List Char} (h : name ∈ rootedNames path) : '\\' ∉ name := fun hc =>
  hpath.backslash (mem_of_mem_segments (mem_of_mem_resolve h) hc)

theorem normalize : IsRooted (Path.normalize path) where
  leadingSlashes := by
    have hslashes := leadingSlashes_ofList_join
      (fun name (hname : name ∈ rootedNames path) => (isPlain_of_mem_rootedNames hname).isName) path
    rwa [hpath.leadingSlashes, ← hpath.normalize_eq] at hslashes
  backslash := by
    have hjoin : '\\' ∉ Text.join ['/'] (rootedNames path) :=
      notMem_join_slash (by decide) fun name hname => hpath.backslash_notMem hname
    rw [hpath.normalize_eq, String.toList_ofList, List.mem_append, not_or]
    exact ⟨by decide, hjoin⟩

theorem normalize_normalize : Path.normalize (Path.normalize path) = Path.normalize path := by
  rw [hpath.normalize.normalize_eq, hpath.rootedNames_normalize, ← hpath.normalize_eq]

theorem leadingSlashes_folder : Path.leadingSlashes (Path.folder (Path.normalize path)) = ['/'] := by
  have hhead := head_join_ne_slash fun name (hname : name ∈ rootedNames path) => (isPlain_of_mem_rootedNames hname).isName
  have hlist : (Path.normalize path).toList = '/' :: Text.join ['/'] (rootedNames path) := by
    rw [hpath.normalize_eq, String.toList_ofList]
    rfl
  obtain ⟨hne, more, hmore⟩ := exists_folder_append (hlist ▸ List.mem_cons_self : '/' ∈ (Path.normalize path).toList)
  rw [hmore, String.toList_append] at hlist
  rcases hfolder : (Path.folder (Path.normalize path)).toList with _ | ⟨c, cs⟩
  · exact absurd (String.toList_eq_nil_iff.mp hfolder) hne
  rw [hfolder, List.cons_append, List.cons.injEq] at hlist
  obtain ⟨rfl, hjoin⟩ := hlist
  refine leadingSlashes_of_toList hfolder ?_
  rintro rest rfl
  exact hhead _ hjoin.symm

include hroot

/-- From the folder of the repository, names lead to the path. -/
theorem exists_way (folder : String) :
    ∃ names, relative folder path root = String.ofList (Text.join ['/'] names) ∧
      (∀ name ∈ names, IsName name ∧ '\\' ∉ name) ∧ resolve true (rootedNames root ++ names) = rootedNames path := by
  have hway : resolve true (rootedNames root ++ wayTo (rootedNames root) (rootedNames path)) = rootedNames path :=
    resolve_append_wayTo (fun _ => isPlain_of_mem_rootedNames) fun _ => isPlain_of_mem_rootedNames
  unfold relative
  rw [hroot.absolute_eq, hpath.absolute_eq, hroot.segments_normalize, hpath.segments_normalize]
  cases hnames : wayTo (rootedNames root) (rootedNames path) with
  | nil =>
    -- the path is the folder itself: its name leads nowhere
    refine ⟨[here], rfl, by decide, ?_⟩
    rwa [resolve_append_here, ← List.append_nil (rootedNames root), ← hnames]
  | cons first rest =>
    refine ⟨first :: rest, rfl, fun name hname => ?_, hnames ▸ hway⟩
    rcases mem_wayTo (hnames ▸ hname) with rfl | htarget
    · decide
    · exact ⟨(isPlain_of_mem_rootedNames htarget).isName, hpath.backslash_notMem htarget⟩

end IsRooted

theorem isAbsolute_join_of_not {base path : String} (hbase : isAbsolute base = false) (hpath : isAbsolute path = false) :
    isAbsolute (join base path) = false := by
  by_cases hempty : base = ""
  · rw [hempty, join, if_neg (by simp [hpath]), if_pos (Or.inl rfl), String.empty_append]
    exact hpath
  · rw [isAbsolute_join hempty hpath, hbase]

theorem isAbsolute_eq_false {path : String} (h : ∀ rest, path.toList ≠ '/' :: rest) : isAbsolute path = false := by
  cases hlist : path.toList with
  | nil => simp [isAbsolute, hlist]
  | cons c cs =>
    have hc : c ≠ '/' := fun heq => h cs (heq ▸ hlist)
    simp [isAbsolute, hlist, hc]

theorem notMem_join {base path : String} {c : Char} (hc : c ≠ '/') (hbase : c ∉ base.toList) (hpath : c ∉ path.toList) :
    c ∉ (join base path).toList := by
  unfold join
  split_ifs
  · exact hpath
  · rw [String.toList_append, List.mem_append, not_or]
    exact ⟨hbase, hpath⟩
  · rw [String.toList_append, String.toList_append, List.mem_append, List.mem_append, not_or, not_or]
    exact ⟨⟨hbase, fun h => hc (List.mem_singleton.mp h)⟩, hpath⟩

/-! ## The path from the name of the repository -/

theorem repositoryPath_eq {folder root path : String} (h : root ≠ "") :
    repositoryPath folder (some root) path =
      forwardSlashes (join (baseName (normalize root)) (relative folder path root)) := by
  have hfilled : (some root).bind Method.nonEmpty? = some root := by simp [Method.nonEmpty?, h]
  rw [repositoryPath, hfilled]

namespace IsRooted

variable {root path : String} (hroot : IsRooted root)

include hroot

theorem exists_repositoryPath (hpath : IsRooted path) (folder : String) :
    ∃ names, repositoryPath folder (some root) path =
        join (baseName (Path.normalize root)) (String.ofList (Text.join ['/'] names)) ∧
      (∀ name ∈ names, IsName name) ∧ resolve true (rootedNames root ++ names) = rootedNames path := by
  obtain ⟨names, hrelative, hnames, hway⟩ := hroot.exists_way hpath folder
  refine ⟨names, ?_, fun name h => (hnames name h).1, hway⟩
  rw [repositoryPath_eq hroot.ne_empty, hrelative, forwardSlashes_eq_self]
  refine notMem_join (by decide) (fun h => hroot.normalize.backslash (mem_of_mem_baseName h)) ?_
  rw [String.toList_ofList]
  exact notMem_join_slash (by decide) fun name h => (hnames name h).2

/-- Names after the name of a folder, seen from the parent of the folder, go on from the folder. -/
theorem normalize_join_names {names : List (List Char)} (hnames : ∀ name ∈ names, IsName name) :
    Path.normalize (join (Path.folder (Path.normalize root))
        (join (baseName (Path.normalize root)) (String.ofList (Text.join ['/'] names)))) =
      String.ofList (['/'] ++ Text.join ['/'] (resolve true (rootedNames root ++ names))) := by
  have hsegments : segments (String.ofList (Text.join ['/'] names)) = names := by
    simpa using segments_ofList_join (by simp : ∀ c ∈ [], c = '/') hnames
  have hlow : Path.isAbsolute (String.ofList (Text.join ['/'] names)) = false :=
    isAbsolute_eq_false fun rest h => head_join_ne_slash hnames rest (String.toList_ofList.symm.trans h)
  have hbase : Path.isAbsolute (baseName (Path.normalize root)) = false :=
    isAbsolute_eq_false fun rest h => slash_notMem_baseName _ (h ▸ List.mem_cons_self)
  have hjoin := isAbsolute_join_of_not hbase hlow
  have hfolder : Path.isAbsolute (Path.folder (Path.normalize root)) = true := by
    rw [← Bool.not_eq_false, ← leadingSlashes_eq_nil_iff.not, hroot.leadingSlashes_folder]
    exact List.cons_ne_nil _ _
  rw [normalize_of_leadingSlashes ((leadingSlashes_join hfolder hjoin).trans hroot.leadingSlashes_folder), rootedNames,
    segments_join _ hjoin, segments_join _ hlow, ← List.append_assoc, segments_folder_append, hroot.segments_normalize,
    hsegments]

/-- **Seen from the parent of the folder of the repository, the identifier of a file leads back to the file.** -/
theorem normalize_repositoryPath (hpath : IsRooted path) (folder : String) :
    Path.normalize (join (Path.folder (Path.normalize root)) (repositoryPath folder (some root) path)) =
      Path.normalize path := by
  obtain ⟨names, hid, hnames, hway⟩ := hroot.exists_repositoryPath hpath folder
  rw [hid, hroot.normalize_join_names hnames, hway, hpath.normalize_eq]

end IsRooted

end Path

/-! ## Identifiers of files -/

/-- **The identifier of a file determines its absolute path**: seen from the parent of the folder of the repository
it leads to that path, so no other file has the same one. -/
theorem fileRecord_id_determines (folder root path : String) (hroot : Path.IsRooted root) (hpath : Path.IsRooted path) :
    ∃ id whole, Record.get (fileRecord folder (some root) path) "id" = .str id ∧
      Record.get (fileRecord folder (some root) path) "absolute_path" = .str whole ∧
      Path.normalize (Path.join (Path.folder (Path.normalize root)) id) = whole ∧
      ∀ other, Path.IsRooted other → Record.get (fileRecord folder (some root) other) "id" = .str id →
        Record.get (fileRecord folder (some root) other) "absolute_path" = .str whole := by
  have hback : ∀ other, Path.IsRooted other →
      Path.normalize (Path.join (Path.folder (Path.normalize root))
        (repositoryPath folder (some root) (Path.absolute folder other))) = Path.absolute folder other := by
    intro other hother
    rw [hother.absolute_eq, hroot.normalize_repositoryPath hother.normalize, hother.normalize_normalize]
  refine ⟨_, _, rfl, rfl, hback path hpath, fun other hother hid => ?_⟩
  have hsame : repositoryPath folder (some root) (Path.absolute folder other) =
      repositoryPath folder (some root) (Path.absolute folder path) := Json.str.inj hid
  have hwhole : Path.absolute folder other = Path.absolute folder path := by
    rw [← hback other hother, hsame, hback path hpath]
  exact congrArg Json.str hwhole

/-- A file outside the repository: no other file is called `repo/../x.js`. -/
theorem fileRecord_id_outside :
    Path.IsRooted "/home/me/./repo/" ∧ Path.IsRooted "/home/me//lib/../x.js" ∧
      Record.get (fileRecord "/" (some "/home/me/./repo/") "/home/me//lib/../x.js") "id" = .str "repo/../x.js" ∧
      ∀ other, Path.IsRooted other →
        Record.get (fileRecord "/" (some "/home/me/./repo/") other) "id" = .str "repo/../x.js" →
        Record.get (fileRecord "/" (some "/home/me/./repo/") other) "absolute_path" = .str "/home/me/x.js" := by
  have hroot : Path.IsRooted "/home/me/./repo/" := by decide
  have hpath : Path.IsRooted "/home/me//lib/../x.js" := by decide
  have hid : Record.get (fileRecord "/" (some "/home/me/./repo/") "/home/me//lib/../x.js") "id" =
      .str "repo/../x.js" := by rfl
  have hwhole : Record.get (fileRecord "/" (some "/home/me/./repo/") "/home/me//lib/../x.js") "absolute_path" =
      .str "/home/me/x.js" := by rfl
  obtain ⟨id, whole, hid', hwhole', -, hother⟩ := fileRecord_id_determines "/" _ _ hroot hpath
  rw [hid, Json.str.injEq] at hid'
  rw [hwhole, Json.str.injEq] at hwhole'
  rw [← hid', ← hwhole'] at hother
  exact ⟨hroot, hpath, hid, hother⟩

end ComponentDocs

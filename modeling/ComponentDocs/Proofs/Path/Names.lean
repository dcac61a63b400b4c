import ComponentDocs.Path
import ComponentDocs.Proofs.Text.Pieces

/-!
# Names along a path

* `Path.IsName`, `Path.IsPlain`: what stands between two slashes, and what names a file or a folder;
* `Path.segments_join`: the names along a path seen from another one;
* `Path.resolve_append`: plain names go down from where the names before them lead.
-/

namespace ComponentDocs

namespace Path

/-! ## Names -/

/-- What may stand between two slashes. -/
def IsName (name : List Char) : Prop := name ≠ [] ∧ '/' ∉ name

instance (name : List Char) : Decidable (IsName name) := inferInstanceAs (Decidable (name ≠ [] ∧ '/' ∉ name))

/-- A name that leads down, to a file or a folder. -/
structure IsPlain (name : List Char) : Prop where
  isName : IsName name
  ne_here : name ≠ here
  ne_above : name ≠ above

instance (name : List Char) : Decidable (IsPlain name) :=
  decidable_of_iff (IsName name ∧ name ≠ here ∧ name ≠ above)
    ⟨fun ⟨hname, hhere, habove⟩ => ⟨hname, hhere, habove⟩, fun h => ⟨h.isName, h.ne_here, h.ne_above⟩⟩

theorem isName_of_mem_segments {path : String} {name : List Char} (h : name ∈ segments path) : IsName name := by
  rw [segments, List.mem_filter] at h
  exact ⟨by simpa using h.2, Text.notMem_of_mem_splitAt h.1⟩

theorem segments_ofList (cs : List Char) :
    segments (String.ofList cs) = (Text.splitAt '/' cs).filter (!·.isEmpty) := by
  rw [segments, String.toList_ofList]

theorem segments_append_slash (base path : String) : segments (base ++ "/" ++ path) = segments base ++ segments path := by
  simp only [segments, String.toList_append]
  have hslash : ("/" : String).toList = ['/'] := rfl
  rw [hslash, List.append_assoc, List.singleton_append, Text.splitAt_append_cons, List.filter_append]

theorem segments_append {base : String} (h : base.toList.getLast? = some '/') (path : String) :
    segments (base ++ path) = segments base ++ segments path := by
  obtain ⟨cs, hcs⟩ := List.getLast?_eq_some_iff.mp h
  simp only [segments, String.toList_append, hcs]
  rw [List.append_assoc, List.singleton_append, Text.splitAt_append_cons, Text.splitAt_append_cons]
  simp [Text.splitAt]

theorem segments_join (base : String) {path : String} (h : isAbsolute path = false) :
    segments (join base path) = segments base ++ segments path := by
  unfold join
  rw [if_neg (by simp [h])]
  split_ifs with hbase
  · rcases hbase with rfl | hbase
    · simp [segments, Text.splitAt]
    · exact segments_append hbase path
  · exact segments_append_slash base path

theorem isAbsolute_append {base : String} (h : base ≠ "") (path : String) :
    isAbsolute (base ++ path) = isAbsolute base := by
  have hne : base.toList ≠ [] := by simpa using h
  cases hbase : base.toList with
  | nil => exact absurd hbase hne
  | cons c cs => simp [isAbsolute, hbase]

theorem isAbsolute_join {base path : String} (h : base ≠ "") (hpath : isAbsolute path = false) :
    isAbsolute (join base path) = isAbsolute base := by
  unfold join
  rw [if_neg (by simp [hpath])]
  split_ifs
  · exact isAbsolute_append h path
  · rw [String.append_assoc, isAbsolute_append h]

theorem segments_ofList_join {slashes : List Char} {names : List (List Char)} (hslashes : ∀ c ∈ slashes, c = '/')
    (h : ∀ name ∈ names, IsName name) : segments (String.ofList (slashes ++ Text.join ['/'] names)) = names := by
  rw [segments_ofList]
  induction slashes with
  | nil =>
    cases names with
    | nil => rfl
    | cons name rest =>
      rw [List.nil_append, Text.splitAt_join (by simp) fun piece hpiece => (h piece hpiece).2, List.filter_eq_self]
      intro piece hpiece
      simp [(h piece hpiece).1]
  | cons c slashes ih =>
    rw [hslashes c List.mem_cons_self, List.cons_append, Text.splitAt, if_pos rfl, List.filter_cons_of_neg (by simp)]
    exact ih fun c hc => hslashes c (List.mem_cons_of_mem _ hc)

/-! ## Working out names -/

section

variable {rooted : Bool} {names more : List (List Char)}

theorem foldl_push_of_isPlain (stack : List (List Char)) (h : ∀ name ∈ more, IsPlain name) :
    more.foldl (push rooted) stack = more.reverse ++ stack := by
  induction more generalizing stack with
  | nil => rfl
  | cons name more ih =>
    have hname := h name List.mem_cons_self
    have hpush : push rooted stack name = name :: stack := by
      simp [push, hname.isName.1, hname.ne_here, hname.ne_above]
    rw [List.foldl_cons, hpush, ih _ fun other hother => h other (List.mem_cons_of_mem _ hother)]
    simp

/-- Plain names go down from where the names before them lead. -/
theorem resolve_append (names : List (List Char)) (h : ∀ name ∈ more, IsPlain name) :
    resolve rooted (names ++ more) = resolve rooted names ++ more := by
  simp [resolve, List.foldl_append, foldl_push_of_isPlain _ h]

theorem resolve_filter_here (names : List (List Char)) :
    resolve rooted (names.filter (· ≠ here)) = resolve rooted names := by
  have hfold : ∀ stack, (names.filter (· ≠ here)).foldl (push rooted) stack = names.foldl (push rooted) stack := by
    induction names with
    | nil => exact fun _ => rfl
    | cons name names ih =>
      intro stack
      by_cases hname : name = here
      · rw [List.filter_cons_of_neg (by simp [hname]), List.foldl_cons, ih]
        simp [push, hname]
      · rw [List.filter_cons_of_pos (by simp [hname]), List.foldl_cons, List.foldl_cons, ih]
  simp only [resolve, hfold]

theorem isPlain_of_mem_push {stack : List (List Char)} {first name : List Char} (hfirst : IsName first)
    (hstack : ∀ name ∈ stack, IsPlain name) (hname : name ∈ push true stack first) : IsPlain name := by
  unfold push at hname
  by_cases hhere : first = [] ∨ first = here
  · rw [if_pos hhere] at hname
    exact hstack name hname
  rw [if_neg hhere] at hname
  by_cases habove : first ≠ above
  · rw [if_pos habove] at hname
    rcases List.mem_cons.mp hname with rfl | hname
    · exact ⟨hfirst, fun heq => hhere (Or.inr heq), habove⟩
    · exact hstack name hname
  rw [if_neg habove] at hname
  cases stack with
  | nil => simp at hname
  | cons top rest =>
    have htop : top ≠ above := (hstack top List.mem_cons_self).ne_above
    simp only [if_neg htop] at hname
    exact hstack name (List.mem_cons_of_mem _ hname)

/-- Below the root, only plain names are left. -/
theorem isPlain_of_mem_resolve (h : ∀ name ∈ names, IsName name) : ∀ name ∈ resolve true names, IsPlain name := by
  have hfold : ∀ stack : List (List Char), (∀ name ∈ stack, IsPlain name) →
      ∀ name ∈ names.foldl (push true) stack, IsPlain name := by
    induction names with
    | nil => exact fun _ hstack => hstack
    | cons first names ih =>
      intro stack hstack
      have hpush : ∀ name ∈ push true stack first, IsPlain name :=
        fun name => isPlain_of_mem_push (h first List.mem_cons_self) hstack
      exact ih (fun other hother => h other (List.mem_cons_of_mem _ hother)) _ hpush
  intro name hname
  rw [resolve, List.mem_reverse] at hname
  exact hfold [] (by simp) name hname

theorem resolve_resolve (h : ∀ name ∈ names, IsName name) : resolve true (resolve true names) = resolve true names := by
  have hplain : resolve true ([] ++ resolve true names) = resolve true [] ++ resolve true names :=
    resolve_append [] (isPlain_of_mem_resolve h)
  simpa [resolve] using hplain

end

end Path

end ComponentDocs

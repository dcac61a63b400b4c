import Mathlib.Data.List.Flatten
import Mathlib.Data.List.Forall2
import Mathlib.Data.List.Induction
import Mathlib.Data.List.Nodup
import Mathlib.Data.List.Perm.Basic
import Mathlib.Data.Nat.Digits.Defs
import Mathlib.Tactic.SplitIfs

/-!
# Lists

What the library does not say about lists, about lists of which one is related to the other member by member, and about
the digits of a number.

* `lt_length_takeWhile_iff`, `takeWhile_append_of_stop`, `dropWhile_cases`: cutting a list at a member;
* `apart_of_append_cons_eq`: a part of a list lies in front of a member that is not in it, or behind that member;
* `filter_eq_singleton`, `flatMap_eq_of_unique`: one member of a list that has it once;
* `eraseDups_concat`: a list without repetitions, built from its end;
* `rel_find?`, `forall₂_flatMap`: searching and joining related lists;
* `notMem_toDigits`: what is no digit is in no number.
-/

namespace ComponentDocs

variable {α β γ δ : Type} {l : List α} {a : α}

/-! ## Parts of a list -/

section

variable {p : α → Bool}

theorem lt_length_takeWhile_iff {n : ℕ} :
    n < (l.takeWhile p).length ↔ ∀ k ≤ n, ∃ a, l[k]? = some a ∧ p a = true := by
  induction l generalizing n with
  | nil =>
    refine iff_of_false (by simp) fun h => ?_
    obtain ⟨b, hb, -⟩ := h 0 (Nat.zero_le n)
    exact absurd hb (by simp)
  | cons a l ih =>
    by_cases ha : p a = true
    · rw [List.takeWhile_cons_of_pos ha, List.length_cons]
      constructor
      · intro h k hk
        cases k with
        | zero => exact ⟨a, rfl, ha⟩
        | succ k => exact (ih (n := n - 1)).mp (by omega) k (by omega)
      · intro h
        cases n with
        | zero => omega
        | succ n => exact Nat.succ_lt_succ (ih.mpr fun k hk => h (k + 1) (by omega))
    · rw [List.takeWhile_cons_of_neg ha]
      refine iff_of_false (by simp) fun h => ?_
      obtain ⟨b, hb, hpb⟩ := h 0 (Nat.zero_le n)
      exact ha ((Option.some.inj hb) ▸ hpb)

theorem takeWhile_append_of_stop (h : p a = false) (l more : List α) :
    (l ++ a :: more).takeWhile p = l.takeWhile p := by
  induction l with
  | nil => exact List.takeWhile_cons_of_neg (Bool.not_eq_true _ ▸ h)
  | cons b l ih => rw [List.cons_append, List.takeWhile_cons, List.takeWhile_cons, ih]

end

theorem dropWhile_cases [DecidableEq α] (l : List α) (a : α) :
    l.dropWhile (· ≠ a) = [] ∨ ∃ rest, l.dropWhile (· ≠ a) = a :: rest := by
  cases h : l.dropWhile (· ≠ a) with
  | nil => exact Or.inl rfl
  | cons b rest =>
    have hfirst := List.head?_dropWhile_not (fun b => decide (b ≠ a)) l
    rw [h] at hfirst
    have hb : b = a := by simpa using hfirst
    exact Or.inr ⟨rest, by rw [hb]⟩

theorem take_succ_of_getElem? {i : ℕ} (h : l[i]? = some a) : l.take (i + 1) = l.take i ++ [a] := by
  rw [List.take_add_one, h]
  rfl

/-- A part without some member stands in front of that member or behind it. -/
theorem apart_of_append_cons_eq {x : α} {as bs part before after : List α} (hpart : x ∉ part)
    (h : as ++ x :: bs = before ++ (part ++ after)) :
    (∃ more, as = before ++ (part ++ more) ∧ after = more ++ x :: bs) ∨ ∃ more, bs = more ++ (part ++ after) := by
  rcases List.append_eq_append_iff.mp h with ⟨cut, rfl, hcut⟩ | ⟨cut, rfl, hcut⟩
  · cases cut with
    | nil =>
      cases part with
      | nil => exact .inl ⟨[], by simp, hcut.symm⟩
      | cons d part => exact absurd (List.cons.inj hcut).1 (List.ne_of_not_mem_cons hpart)
    | cons d cut => exact .inr ⟨cut, (List.cons.inj hcut).2⟩
  · rcases List.append_eq_append_iff.mp hcut with ⟨more, rfl, hmore⟩ | ⟨more, rfl, hmore⟩
    · exact .inl ⟨more, by simp, hmore⟩
    · cases more with
      | nil => exact .inl ⟨[], by simp, hmore.symm⟩
      | cons d more => exact absurd (by simp [(List.cons.inj hmore).1]) hpart

theorem concat_suffix_concat_iff {part cs : List α} {p c : α} :
    part ++ [p] <:+ cs ++ [c] ↔ part <:+ cs ∧ p = c := by
  rw [List.suffix_concat_iff]
  constructor
  · rintro (h | ⟨front, heq, hfront⟩)
    · simp at h
    · obtain ⟨rfl, hlast⟩ := List.append_inj' heq rfl
      exact ⟨hfront, List.singleton_injective hlast⟩
  · rintro ⟨h, rfl⟩
    exact .inr ⟨part, rfl, h⟩

/-! ## One member -/

theorem filter_eq_singleton [DecidableEq β] {f : α → β} (hnodup : (l.map f).Nodup) (ha : a ∈ l) :
    l.filter (fun b => f b = f a) = [a] := by
  induction l with
  | nil => exact absurd ha List.not_mem_nil
  | cons b l ih =>
    rw [List.map_cons, List.nodup_cons] at hnodup
    rcases List.mem_cons.mp ha with rfl | ha
    · rw [List.filter_cons_of_pos (by simp), List.filter_eq_nil_iff.mpr]
      intro b hb
      rw [decide_eq_true_eq]
      exact fun heq => hnodup.1 (heq ▸ List.mem_map_of_mem hb)
    · have hne : f b ≠ f a := fun heq => hnodup.1 (heq ▸ List.mem_map_of_mem ha)
      rw [List.filter_cons_of_neg (by simpa using hne)]
      exact ih hnodup.2 ha

theorem flatMap_eq_of_unique {f : α → List β} (hnodup : l.Nodup) (ha : a ∈ l)
    (h : ∀ b ∈ l, b ≠ a → f b = []) : l.flatMap f = f a := by
  induction l with
  | nil => exact absurd ha List.not_mem_nil
  | cons b l ih =>
    rw [List.nodup_cons] at hnodup
    rw [List.flatMap_cons]
    rcases List.mem_cons.mp ha with rfl | ha
    · have hrest : l.flatMap f = [] := List.flatMap_eq_nil_iff.mpr fun b hb =>
        h b (List.mem_cons_of_mem _ hb) fun heq => hnodup.1 (heq ▸ hb)
      rw [hrest, List.append_nil]
    · rw [h b (List.mem_cons_self ..) fun heq => hnodup.1 (heq ▸ ha), List.nil_append]
      exact ih hnodup.2 ha fun c hc => h c (List.mem_cons_of_mem _ hc)

/-! ## Repeated members -/

section

variable [DecidableEq α]

theorem eraseDups_concat (names : List α) (name : α) :
    (names ++ [name]).eraseDups = if name ∈ names then names.eraseDups else names.eraseDups ++ [name] := by
  rw [List.eraseDups_append]
  split_ifs with h
  · simp [List.removeAll, h]
  · simp [List.removeAll, h, List.eraseDups_cons]

theorem nodup_eraseDups (names : List α) : names.eraseDups.Nodup := by
  induction names using List.reverseRecOn with
  | nil => exact List.nodup_nil
  | append_singleton names name ih =>
    rw [eraseDups_concat]
    split_ifs with h
    · exact ih
    · rw [← List.concat_eq_append]
      exact ih.concat fun hmem => h (List.mem_eraseDups.mp hmem)

theorem eraseDups_of_nodup {names : List α} (h : names.Nodup) : names.eraseDups = names := by
  induction names using List.reverseRecOn with
  | nil => rfl
  | append_singleton names name ih =>
    obtain ⟨hnodup, -, hnew⟩ := List.nodup_append.mp h
    have hname : name ∉ names := fun hmem => hnew name hmem name (List.mem_singleton_self _) rfl
    rw [eraseDups_concat, if_neg hname, ih hnodup]

theorem eraseDups_append_of_subset {names more : List α} (h : more ⊆ names) :
    (names ++ more).eraseDups = names.eraseDups := by
  induction more using List.reverseRecOn with
  | nil => rw [List.append_nil]
  | append_singleton more name ih =>
    obtain ⟨hmore, hname⟩ := List.append_subset.mp h
    rw [← List.append_assoc, eraseDups_concat, if_pos (List.mem_append_left _ (hname (List.mem_singleton_self _))), ih hmore]

end

/-! ## Lists in another order -/

theorem exists_of_perm_map {f : α → β} {ys : List β} {xs : List α} (h : ys.Perm (xs.map f)) :
    ∃ others : List α, others.Perm xs ∧ ys = others.map f := by
  obtain ⟨others, hothers, hperm⟩ := (congrFun (congrFun (List.eq_map_comp_perm f) ys) xs).mpr h
  exact ⟨others, hperm, hothers⟩

theorem mergeSort_eq_reverse {le : α → α → Bool} {xs : List α} (htwo : xs.length = 2)
    (hle : ¬ xs.Pairwise fun a b => le a b = true) : xs.mergeSort le = xs.reverse := by
  obtain ⟨a, b, rfl⟩ := List.length_eq_two.mp htwo
  have hab : le a b = false := by simpa using hle
  simp [List.mergeSort, hab]

/-! ## Related lists -/

section

variable {R : α → β → Prop} {S : γ → δ → Prop} {xs : List α} {ys : List β}

theorem rel_find? {p : α → Bool} {q : β → Bool} (hpq : ∀ x y, R x y → p x = q y) (h : List.Forall₂ R xs ys) :
    Option.Rel R (xs.find? p) (ys.find? q) := by
  induction h with
  | nil => exact .none
  | @cons x y xs ys hxy _ ih =>
    rw [List.find?_cons, List.find?_cons, ← hpq x y hxy]
    cases p x with
    | true => exact .some hxy
    | false => exact ih

theorem rel_head? (h : List.Forall₂ R xs ys) : Option.Rel R xs.head? ys.head? := by
  cases h with
  | nil => exact .none
  | cons hxy _ => exact .some hxy

theorem rel_map {f : α → γ} {g : β → δ} {x : Option α} {y : Option β} (hfg : ∀ a b, R a b → S (f a) (g b))
    (h : Option.Rel R x y) : Option.Rel S (x.map f) (y.map g) := by
  cases h with
  | none => exact .none
  | some hab => exact .some (hfg _ _ hab)

theorem forall₂_flatMap {f : α → List γ} {g : β → List δ} (h : List.Forall₂ R xs ys)
    (hfg : ∀ x ∈ xs, ∀ y, R x y → List.Forall₂ S (f x) (g y)) : List.Forall₂ S (xs.flatMap f) (ys.flatMap g) := by
  induction h with
  | nil => exact .nil
  | cons hxy _ ih =>
    rw [List.flatMap_cons, List.flatMap_cons]
    exact List.rel_append (hfg _ List.mem_cons_self _ hxy) (ih fun x hx => hfg x (List.mem_cons_of_mem _ hx))

end

/-! ## Digits -/

section

variable {m n : ℕ} {c : Char}

theorem isDigit_of_mem_toDigits (hc : c ∈ Nat.toDigits 10 n) : c.isDigit = true :=
  Nat.isDigit_of_mem_toDigits (by decide) (by decide) hc

theorem notMem_toDigits (hc : c.isDigit = false) (n : ℕ) : c ∉ Nat.toDigits 10 n := fun hmem =>
  Bool.false_ne_true (hc.symm.trans (isDigit_of_mem_toDigits hmem))

theorem head_toDigits_ne_zero (h : 0 < n) : (Nat.toDigits 10 n).head? ≠ some '0' := by
  induction n using Nat.strongRecOn with
  | _ n ih =>
    rw [Nat.toDigits_eq_if (by decide)]
    split_ifs with hsmall
    · have hall : ∀ m : Fin 10, 0 < m.val → [m.val.digitChar].head? ≠ some '0' := by decide
      exact hall ⟨n, hsmall⟩ h
    · have hhead := ih (n / 10) (by omega) (by omega)
      cases hdigits : Nat.toDigits 10 (n / 10) with
      | nil => exact absurd hdigits Nat.toDigits_ne_nil
      | cons c cs =>
        rw [hdigits] at hhead
        simpa using hhead

theorem length_toDigits_mono (h : m ≤ n) : (Nat.toDigits 10 m).length ≤ (Nat.toDigits 10 n).length := by
  have hle := fun k => @Nat.length_toDigits_le_iff 10 k (Nat.toDigits 10 n).length (by decide) Nat.length_toDigits_pos
  exact (hle m).mpr (Nat.lt_of_le_of_lt h ((hle n).mp (Nat.le_refl _)))

end

end ComponentDocs

import ComponentDocs.Text.Case
import Mathlib.Data.List.Basic
import Mathlib.Tactic.SplitIfs

/-!
# Lower case words

* `lowerChar_of_beyond`: what characters beyond ASCII are lowered to;
* **`lower_eq_iff`**: a text is lowered to an ASCII word without `i` and `k` exactly if its ASCII letters are.
-/

namespace ComponentDocs.Text

/-- Runs beyond ASCII are lowered to characters beyond ASCII, but for the sign of the kelvin, lowered to `k`. -/
theorem lowerRuns_beyond : ∀ run ∈ lowerRuns, run.first = 0x212a ∧ run.last = 0x212a ∧ run.shift = -8383 ∨
    128 ≤ run.first + run.shift ∧ run.last + run.shift < 0xd800 ∨
      0xe000 ≤ run.first + run.shift ∧ run.last + run.shift < 0x110000 := by decide +kernel

theorem toNat_ofNat_of_valid {n : Nat} (h : n.isValidChar) : (Char.ofNat n).toNat = n := by
  rw [Char.ofNat, dif_pos h]
  rfl

theorem toNat_of_map? {run : CaseRun} (hrun : run ∈ lowerRuns) {n : Nat} {d : Char} (h : run.map? n = some d) :
    128 ≤ d.toNat ∨ d = 'k' := by
  rw [CaseRun.map?] at h
  split_ifs at h with hn
  simp only [Bool.and_eq_true, decide_eq_true_eq] at hn
  cases h
  rcases lowerRuns_beyond run hrun with ⟨hfirst, hlast, hshift⟩ | hsmall | hlarge
  · obtain rfl : n = 0x212a := by omega
    rw [hshift]
    exact .inr rfl
  · have hvalid : ((n : Int) + run.shift).toNat.isValidChar := .inl (by omega)
    rw [toNat_ofNat_of_valid hvalid]
    omega
  · have hvalid : ((n : Int) + run.shift).toNat.isValidChar := .inr ⟨by omega, by omega⟩
    rw [toNat_ofNat_of_valid hvalid]
    omega

/-- A character beyond ASCII is lowered to such characters, or `i` or `k` is among them. -/
theorem lowerChar_of_beyond {c : Char} (hc : 128 ≤ c.toNat) :
    ∀ d ∈ lowerChar c, 128 ≤ d.toNat ∨ d = 'i' ∨ d = 'k' := by
  intro d hd
  rw [lowerChar, if_neg (by omega)] at hd
  split_ifs at hd
  · rcases List.mem_pair.mp hd with rfl | rfl
    · exact .inr (.inl rfl)
    · exact .inl (by decide)
  · rw [List.mem_singleton] at hd
    cases hfound : lowerRuns.findSome? (·.map? c.toNat) with
    | none =>
      rw [hd, hfound, Option.getD_none]
      exact .inl hc
    | some e =>
      obtain ⟨run, hrun, hmap⟩ := List.exists_of_findSome?_eq_some hfound
      rw [hd, hfound, Option.getD_some]
      exact (toNat_of_map? hrun hmap).imp_right .inr

theorem lowerChar_ne_nil (c : Char) : lowerChar c ≠ [] := by
  unfold lowerChar
  split_ifs <;> simp

theorem toLower_of_beyond {c : Char} (hc : 128 ≤ c.toNat) : c.toLower = c := by
  refine dif_neg ?_
  rintro ⟨-, hlast⟩
  have hlast : c.toNat ≤ 90 := hlast
  omega

theorem lowerFrom_cons (before : List Char) (c : Char) (cs : List Char) : ∃ first form,
    lowerFrom before (c :: cs) = first :: (form ++ lowerFrom (c :: before) cs) ∧
      (c.toNat < 128 → first = c.toLower ∧ form = []) ∧
      (128 ≤ c.toNat → 128 ≤ first.toNat ∨ first = 'i' ∨ first = 'k') := by
  rw [lowerFrom]
  by_cases hsigma : c.toNat = 0x3a3
  · simp only [if_pos hsigma]
    refine ⟨_, [], rfl, fun h => by omega, fun _ => .inl ?_⟩
    split_ifs <;> decide
  · simp only [if_neg hsigma]
    obtain ⟨first, form, hform⟩ := List.exists_cons_of_ne_nil (lowerChar_ne_nil c)
    rw [hform]
    refine ⟨first, form, rfl, fun h => ?_, fun h => lowerChar_of_beyond h first (hform ▸ List.mem_cons_self)⟩
    rw [lowerChar, if_pos h] at hform
    exact ⟨(List.cons.inj hform).1.symm, (List.cons.inj hform).2.symm⟩

/-- **A text is lowered to an ASCII word without `i` and `k` exactly if its ASCII letters are.** -/
theorem lower_eq_iff {word : List Char} (hword : ∀ c ∈ word, c.toNat < 128 ∧ c ≠ 'i' ∧ c ≠ 'k') (cs : List Char) :
    lower cs = word ↔ cs.map Char.toLower = word := by
  rw [lower]
  generalize ([] : List Char) = before
  induction cs generalizing before word with
  | nil => exact Iff.rfl
  | cons c cs ih =>
    obtain ⟨first, form, hlower, hascii, hbeyond⟩ := lowerFrom_cons before c cs
    rw [hlower, List.map_cons]
    cases word with
    | nil => exact iff_of_false (List.cons_ne_nil _ _) (List.cons_ne_nil _ _)
    | cons d word =>
      obtain ⟨hd, hi, hk⟩ := hword d List.mem_cons_self
      rw [List.cons.injEq, List.cons.injEq]
      by_cases hc : c.toNat < 128
      · obtain ⟨rfl, rfl⟩ := hascii hc
        rw [List.nil_append, ih (fun e he => hword e (List.mem_cons_of_mem _ he))]
      · refine iff_of_false (fun h => ?_) (fun h => ?_)
        · rcases hbeyond (by omega) with hfirst | hfirst | hfirst
          · rw [h.1] at hfirst
            omega
          · exact hi (h.1 ▸ hfirst)
          · exact hk (h.1 ▸ hfirst)
        · rw [← h.1, toLower_of_beyond (by omega)] at hd
          exact hc hd

end ComponentDocs.Text

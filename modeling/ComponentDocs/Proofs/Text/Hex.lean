import ComponentDocs.Digest.Block
import Mathlib.Algebra.Group.Nat.Defs

/-!
# Hexadecimal digits

* `Text.forall_mem_hexDigits`, `Digest.forall_mem_hex`: what holds of the sixteen digits holds of every character of
  a number or of bytes;
* **`Digest.hex_injective`**: the digits determine the bytes.
-/

namespace ComponentDocs

variable {P : Char → Prop}

theorem Text.forall_mem_hexDigits (h : ∀ digit : Fin 16, P (hexDigit digit)) (width n : Nat) :
    ∀ c ∈ hexDigits width n, P c := by
  induction width generalizing n with
  | zero => simp [hexDigits]
  | succ width ih =>
    intro c hc
    rw [hexDigits, List.mem_append, List.mem_singleton] at hc
    rcases hc with hc | rfl
    · exact ih _ c hc
    · exact h ⟨n % 16, Nat.mod_lt _ (by decide)⟩

theorem Digest.forall_mem_hex (h : ∀ digit : Fin 16, P (Text.hexDigit digit)) (bytes : List UInt8) :
    ∀ c ∈ hex bytes, P c := by
  intro c hc
  obtain ⟨b, -, hb⟩ := List.mem_flatMap.mp hc
  exact Text.forall_mem_hexDigits h _ _ c hb

theorem Text.hexDigit_inj {a b : Nat} (ha : a < 16) (hb : b < 16) (h : hexDigit a = hexDigit b) : a = b := by
  have hall : ∀ a b : Fin 16, hexDigit a = hexDigit b → a = b := by decide
  exact congrArg Fin.val (hall ⟨a, ha⟩ ⟨b, hb⟩ h)

theorem Text.length_hexDigits (width n : Nat) : (hexDigits width n).length = width := by
  induction width generalizing n with
  | zero => rfl
  | succ width ih => rw [hexDigits, List.length_append, ih, List.length_singleton]

theorem Text.mod_eq_of_hexDigits_eq {width a b : Nat} (h : hexDigits width a = hexDigits width b) :
    a % 16 ^ width = b % 16 ^ width := by
  induction width generalizing a b with
  | zero => rw [Nat.pow_zero, Nat.mod_one, Nat.mod_one]
  | succ width ih =>
    obtain ⟨hfront, hlast⟩ := List.append_inj' h rfl
    have hdigit := hexDigit_inj (Nat.mod_lt a (by decide)) (Nat.mod_lt b (by decide)) (List.singleton_inj.mp hlast)
    rw [Nat.pow_succ', Nat.mod_mul, Nat.mod_mul, hdigit, ih hfront]

/-- **Two digits for every byte determine the bytes.** -/
theorem Digest.hex_injective {bytes others : List UInt8} (h : hex bytes = hex others) : bytes = others := by
  have hne : ∀ (b : UInt8) (more : List UInt8), hex (b :: more) ≠ [] := fun b more hnil => by
    have hlength := congrArg List.length hnil
    rw [hex, List.flatMap_cons, List.length_append, Text.length_hexDigits, List.length_nil] at hlength
    omega
  induction bytes generalizing others with
  | nil =>
    cases others with
    | nil => rfl
    | cons b others => exact absurd h.symm (hne b others)
  | cons a bytes ih =>
    cases others with
    | nil => exact absurd h (hne a bytes)
    | cons b others =>
      rw [hex, hex, List.flatMap_cons, List.flatMap_cons] at h
      obtain ⟨hbyte, hrest⟩ := List.append_inj h (by rw [Text.length_hexDigits, Text.length_hexDigits])
      have hmod := Text.mod_eq_of_hexDigits_eq hbyte
      have hlt : ∀ c : UInt8, c.toNat < 16 ^ 2 := UInt8.toNat_lt
      rw [Nat.mod_eq_of_lt (hlt a), Nat.mod_eq_of_lt (hlt b)] at hmod
      rw [UInt8.toNat_inj.mp hmod, ih hrest]

end ComponentDocs

import ComponentDocs.Text.Utf8
import Mathlib.Data.List.Basic
import Mathlib.Tactic.SplitIfs

/-!
# Reading what was written in UTF-8

* `decode_encodeChar_append`: the bytes of a character are read as this character;
* **`decode_encode`**: the bytes of a text are read as this text;
* `count_encode`: the line feeds of a text are those of its bytes.
-/

namespace ComponentDocs.Text

/-! ## Bytes -/

theorem toNat_toUInt8 {n : ℕ} (h : n < 256) : n.toUInt8.toNat = n := by
  rw [Nat.toUInt8, UInt8.toNat_ofNat']
  exact Nat.mod_eq_of_lt h

theorem between_iff (low a high : UInt8) :
    (decide (low ≤ a) && decide (a ≤ high)) = true ↔ low.toNat ≤ a.toNat ∧ a.toNat ≤ high.toNat := by
  rw [Bool.and_eq_true, decide_eq_true_iff, decide_eq_true_iff, UInt8.le_iff_toNat_le, UInt8.le_iff_toNat_le]

theorem isContinuation_iff (b : UInt8) : isContinuation b = true ↔ 0x80 ≤ b.toNat ∧ b.toNat ≤ 0xbf :=
  between_iff 0x80 b 0xbf

theorem isContinuation_payload (n : ℕ) : isContinuation (0x80 + n % 64).toUInt8 = true := by
  rw [isContinuation_iff, toNat_toUInt8 (by omega)]
  omega

theorem payload_toUInt8 (n : ℕ) : payload (0x80 + n % 64).toUInt8 = n % 64 := by
  rw [payload, toNat_toUInt8 (by omega)]
  omega

theorem toNat_range (c : Char) : c.toNat < 0xd800 ∨ 0xdfff < c.toNat ∧ c.toNat < 0x110000 := c.valid

/-! ## One character -/

theorem decode_one {n : ℕ} (h : n < 0x80) (rest : List UInt8) :
    decode (n.toUInt8 :: rest) = Char.ofNat n :: decode rest := by
  have hbyte : n.toUInt8.toNat = n := toNat_toUInt8 (by omega)
  have hlow : n.toUInt8 < 0x80 := by
    rw [UInt8.lt_iff_toNat_lt, hbyte]
    exact h
  rw [decode.eq_def]
  dsimp only
  rw [if_pos hlow, hbyte]

theorem decode_two {n : ℕ} (hlow : 0x80 ≤ n) (hhigh : n < 0x800) (rest : List UInt8) :
    decode ((0xc0 + n / 64).toUInt8 :: (0x80 + n % 64).toUInt8 :: rest) = Char.ofNat n :: decode rest := by
  have ha : (0xc0 + n / 64).toUInt8.toNat = 0xc0 + n / 64 := toNat_toUInt8 (by omega)
  generalize (0xc0 + n / 64).toUInt8 = a at ha ⊢
  have hone : ¬ a < 0x80 := by
    rw [UInt8.lt_iff_toNat_lt, ha]
    exact Nat.not_lt.mpr (show 0x80 ≤ 0xc0 + n / 64 by omega)
  have htwo : (decide (0xc2 ≤ a) && decide (a ≤ 0xdf)) = true := by
    rw [between_iff, ha]
    exact (show 0xc2 ≤ 0xc0 + n / 64 ∧ 0xc0 + n / 64 ≤ 0xdf by omega)
  have hchar : char2 a (0x80 + n % 64).toUInt8 = Char.ofNat n := by
    rw [char2, payload_toUInt8, ha]
    congr 1
    omega
  rw [decode.eq_def]
  dsimp only
  rw [if_neg hone, if_pos htwo, if_pos (isContinuation_payload n), hchar]

/-- The second of three bytes excludes longer forms of shorter characters, and surrogates. -/
theorem followsThree_of_range {n : ℕ} (hlow : 0x800 ≤ n) (hhigh : n < 0xd800 ∨ 0xdfff < n) {a : UInt8}
    (ha : a.toNat = 0xe0 + n / 4096) : followsThree a (0x80 + n / 64 % 64).toUInt8 = true := by
  have hb : (0x80 + n / 64 % 64).toUInt8.toNat = 0x80 + n / 64 % 64 := toNat_toUInt8 (by omega)
  unfold followsThree
  split_ifs with hfirst hsurrogate
  · rw [hfirst] at ha
    have hn : n / 4096 = 0 := by simpa using ha
    rw [between_iff, hb]
    exact (show 0xa0 ≤ 0x80 + n / 64 % 64 ∧ 0x80 + n / 64 % 64 ≤ 0xbf by omega)
  · rw [hsurrogate] at ha
    have hn : 0xed = 0xe0 + n / 4096 := ha
    rw [between_iff, hb]
    exact (show 0x80 ≤ 0x80 + n / 64 % 64 ∧ 0x80 + n / 64 % 64 ≤ 0x9f by omega)
  · exact isContinuation_payload (n / 64)

theorem decode_three {n : ℕ} (hlow : 0x800 ≤ n) (hhigh : n < 0x10000) (hsurrogate : n < 0xd800 ∨ 0xdfff < n)
    (rest : List UInt8) :
    decode ((0xe0 + n / 4096).toUInt8 :: (0x80 + n / 64 % 64).toUInt8 :: (0x80 + n % 64).toUInt8 :: rest) =
      Char.ofNat n :: decode rest := by
  have ha : (0xe0 + n / 4096).toUInt8.toNat = 0xe0 + n / 4096 := toNat_toUInt8 (by omega)
  generalize (0xe0 + n / 4096).toUInt8 = a at ha ⊢
  have hone : ¬ a < 0x80 := by
    rw [UInt8.lt_iff_toNat_lt, ha]
    exact Nat.not_lt.mpr (show 0x80 ≤ 0xe0 + n / 4096 by omega)
  have htwo : ¬ (decide (0xc2 ≤ a) && decide (a ≤ 0xdf)) = true := by
    rw [between_iff, ha]
    exact (show ¬ (0xc2 ≤ 0xe0 + n / 4096 ∧ 0xe0 + n / 4096 ≤ 0xdf) by omega)
  have hthree : (decide (0xe0 ≤ a) && decide (a ≤ 0xef)) = true := by
    rw [between_iff, ha]
    exact (show 0xe0 ≤ 0xe0 + n / 4096 ∧ 0xe0 + n / 4096 ≤ 0xef by omega)
  have hchar : char3 a (0x80 + n / 64 % 64).toUInt8 (0x80 + n % 64).toUInt8 = Char.ofNat n := by
    rw [char3, payload_toUInt8, payload_toUInt8, ha]
    congr 1
    omega
  rw [decode.eq_def]
  dsimp only
  rw [if_neg hone, if_neg htwo, if_pos hthree, if_pos (followsThree_of_range hlow hsurrogate ha),
    if_pos (isContinuation_payload n), hchar]

/-- The second of four bytes excludes longer forms of shorter characters, and what is beyond the last one. -/
theorem followsFour_of_range {n : ℕ} (hlow : 0x10000 ≤ n) (hhigh : n < 0x110000) {a : UInt8}
    (ha : a.toNat = 0xf0 + n / 262144) : followsFour a (0x80 + n / 4096 % 64).toUInt8 = true := by
  have hb : (0x80 + n / 4096 % 64).toUInt8.toNat = 0x80 + n / 4096 % 64 := toNat_toUInt8 (by omega)
  unfold followsFour
  split_ifs with hfirst hlast
  · rw [hfirst] at ha
    have hn : 0xf0 = 0xf0 + n / 262144 := ha
    rw [between_iff, hb]
    exact (show 0x90 ≤ 0x80 + n / 4096 % 64 ∧ 0x80 + n / 4096 % 64 ≤ 0xbf by omega)
  · rw [hlast] at ha
    have hn : 0xf4 = 0xf0 + n / 262144 := ha
    rw [between_iff, hb]
    exact (show 0x80 ≤ 0x80 + n / 4096 % 64 ∧ 0x80 + n / 4096 % 64 ≤ 0x8f by omega)
  · exact isContinuation_payload (n / 4096)

theorem decode_four {n : ℕ} (hlow : 0x10000 ≤ n) (hhigh : n < 0x110000) (rest : List UInt8) :
    decode ((0xf0 + n / 262144).toUInt8 :: (0x80 + n / 4096 % 64).toUInt8 :: (0x80 + n / 64 % 64).toUInt8 ::
      (0x80 + n % 64).toUInt8 :: rest) = Char.ofNat n :: decode rest := by
  have ha : (0xf0 + n / 262144).toUInt8.toNat = 0xf0 + n / 262144 := toNat_toUInt8 (by omega)
  generalize (0xf0 + n / 262144).toUInt8 = a at ha ⊢
  have hone : ¬ a < 0x80 := by
    rw [UInt8.lt_iff_toNat_lt, ha]
    exact Nat.not_lt.mpr (show 0x80 ≤ 0xf0 + n / 262144 by omega)
  have htwo : ¬ (decide (0xc2 ≤ a) && decide (a ≤ 0xdf)) = true := by
    rw [between_iff, ha]
    exact (show ¬ (0xc2 ≤ 0xf0 + n / 262144 ∧ 0xf0 + n / 262144 ≤ 0xdf) by omega)
  have hthree : ¬ (decide (0xe0 ≤ a) && decide (a ≤ 0xef)) = true := by
    rw [between_iff, ha]
    exact (show ¬ (0xe0 ≤ 0xf0 + n / 262144 ∧ 0xf0 + n / 262144 ≤ 0xef) by omega)
  have hfour : (decide (0xf0 ≤ a) && decide (a ≤ 0xf4)) = true := by
    rw [between_iff, ha]
    exact (show 0xf0 ≤ 0xf0 + n / 262144 ∧ 0xf0 + n / 262144 ≤ 0xf4 by omega)
  have hchar : char4 a (0x80 + n / 4096 % 64).toUInt8 (0x80 + n / 64 % 64).toUInt8 (0x80 + n % 64).toUInt8 =
      Char.ofNat n := by
    rw [char4, payload_toUInt8, payload_toUInt8, payload_toUInt8, ha]
    congr 1
    omega
  rw [decode.eq_def]
  dsimp only
  rw [if_neg hone, if_neg htwo, if_neg hthree, if_pos hfour, if_pos (followsFour_of_range hlow hhigh ha),
    if_pos (isContinuation_payload (n / 64)), if_pos (isContinuation_payload n), hchar]

/-- The bytes of a character are read as this character. -/
theorem decode_encodeChar_append (c : Char) (rest : List UInt8) : decode (encodeChar c ++ rest) = c :: decode rest := by
  have hrange := toNat_range c
  conv_rhs => rw [← Char.ofNat_toNat c]
  unfold encodeChar
  dsimp only
  split_ifs with hone htwo hthree
  · exact decode_one hone rest
  · exact decode_two (by omega) htwo rest
  · exact decode_three (by omega) hthree (by omega) rest
  · exact decode_four (by omega) (by omega) rest

/-! ## Texts -/

theorem encode_append (cs ds : List Char) : encode (cs ++ ds) = encode cs ++ encode ds := List.flatMap_append ..

theorem decode_encode_append (cs : List Char) (rest : List UInt8) : decode (encode cs ++ rest) = cs ++ decode rest := by
  induction cs with
  | nil => rfl
  | cons c cs ih =>
    rw [encode, List.flatMap_cons, List.append_assoc, decode_encodeChar_append, ← encode, ih]
    rfl

/-- **The bytes of a text are read as this text.** -/
theorem decode_encode (cs : List Char) : decode (encode cs) = cs := by
  have h := decode_encode_append cs []
  rwa [List.append_nil, show decode [] = [] from rfl, List.append_nil] at h

theorem encode_injective {cs ds : List Char} (h : encode cs = encode ds) : cs = ds := by
  rw [← decode_encode cs, h, decode_encode]

/-! ## Line feeds -/

theorem count_encodeChar (c : Char) : (encodeChar c).count 10 = if c = '\n' then 1 else 0 := by
  have hrange := toNat_range c
  have hbyte : ∀ n < 256, n ≠ 10 → n.toUInt8 ≠ 10 := by
    intro n hn hne heq
    apply hne
    rw [← toNat_toUInt8 hn, heq]
    rfl
  by_cases hfeed : c = '\n'
  · rw [hfeed]
    decide
  · have hne : c.toNat ≠ 10 := fun heq => hfeed (by rw [← Char.ofNat_toNat c, heq])
    rw [if_neg hfeed, List.count_eq_zero]
    unfold encodeChar
    dsimp only
    split_ifs <;> simp only [List.mem_cons, List.not_mem_nil, or_false, not_or]
    · exact (hbyte _ (by omega) hne).symm
    · exact ⟨(hbyte _ (by omega) (by omega)).symm, (hbyte _ (by omega) (by omega)).symm⟩
    · exact ⟨(hbyte _ (by omega) (by omega)).symm, (hbyte _ (by omega) (by omega)).symm,
        (hbyte _ (by omega) (by omega)).symm⟩
    · exact ⟨(hbyte _ (by omega) (by omega)).symm, (hbyte _ (by omega) (by omega)).symm,
        (hbyte _ (by omega) (by omega)).symm, (hbyte _ (by omega) (by omega)).symm⟩

theorem count_encode (cs : List Char) : (encode cs).count 10 = cs.count '\n' := by
  induction cs with
  | nil => rfl
  | cons c cs ih =>
    rw [encode, List.flatMap_cons, List.count_append, count_encodeChar, ← encode, ih, List.count_cons, Nat.add_comm]
    simp only [beq_iff_eq]

end ComponentDocs.Text

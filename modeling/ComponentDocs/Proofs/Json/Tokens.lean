import ComponentDocs.Json.Printer
import ComponentDocs.Json.Reader
import ComponentDocs.Proofs.Json.Sound
import ComponentDocs.Proofs.Lists
import ComponentDocs.Proofs.Text.Utf8

/-!
# Tokens that are read back

Strings and numbers are read as they were written.

* `readString_stringText`: a string between quotes;
* `readNumber_integerText`, `readNumber_decimal`: numbers in front of something that cannot go on with them.
-/

namespace ComponentDocs.Json

/-! ## Digits -/

theorem hexValue?_hexDigit {n : Nat} (h : n < 16) : hexValue? (Text.hexDigit n) = some n := by
  have hall : ∀ m : Fin 16, hexValue? (Text.hexDigit m) = some m.val := by decide
  exact hall ⟨n, h⟩

theorem readHex4_hexDigits {n : Nat} (h : n < 0x10000) (rest : List Char) :
    readHex4 (Text.hexDigits 4 n ++ rest) = some (n, rest) := by
  have hn : ((n / 16 / 16 / 16 % 16 * 16 + n / 16 / 16 % 16) * 16 + n / 16 % 16) * 16 + n % 16 = n := by omega
  simp [Text.hexDigits, readHex4, hexValue?_hexDigit, Nat.mod_lt, hn]

/-! ## Strings -/

/-- The escape of a character that one unit holds: it is no half of a pair. -/
theorem readUnicodeEscape_unit {c : Char} (h : c.toNat < 0x10000) (rest : List Char) :
    readUnicodeEscape (Text.hexDigits 4 c.toNat ++ rest) = some (c, rest) := by
  have hvalid : c.toNat < 0xd800 ∨ 0xdfff < c.toNat := (Text.toNat_range c).imp_right And.left
  have hhigh : isHighUnit c.toNat = false := by
    simp [isHighUnit]
    omega
  have hlow : isLowUnit c.toNat = false := by
    simp [isLowUnit]
    omega
  have hc : unitChar c.toNat = c := by simp [unitChar, hhigh, hlow, Char.ofNat_toNat]
  simp [readUnicodeEscape, readHex4_hexDigits h, hhigh, hc]

/-- Two units that are the halves of a pair. -/
theorem readUnicodeEscape_of_halves {digits more rest : List Char} {high low : Nat}
    (hdigits : readHex4 digits = some (high, '\\' :: 'u' :: more)) (hmore : readHex4 more = some (low, rest))
    (hhigh : isHighUnit high = true) (hlow : isLowUnit low = true) :
    readUnicodeEscape digits = some (pairChar high low, rest) := by
  simp [readUnicodeEscape, hdigits, hmore, hhigh, hlow]

theorem escapeUnit_append (unit : Nat) (rest : List Char) :
    escapeUnit unit ++ rest = '\\' :: 'u' :: (Text.hexDigits 4 unit ++ rest) := rfl

theorem readUnicodeEscape_pair {c : Char} (h : 0x10000 ≤ c.toNat) (rest : List Char) :
    readUnicodeEscape (Text.hexDigits 4 (0xd800 + (c.toNat - 0x10000) / 0x400) ++
      (escapeUnit (0xdc00 + (c.toNat - 0x10000) % 0x400) ++ rest)) = some (c, rest) := by
  have hvalid : c.toNat < 0x110000 := by
    have := Text.toNat_range c
    omega
  have hhigh : isHighUnit (0xd800 + (c.toNat - 0x10000) / 0x400) = true := by
    simp [isHighUnit]
    omega
  have hlow : isLowUnit (0xdc00 + (c.toNat - 0x10000) % 0x400) = true := by
    simp [isLowUnit]
    omega
  have hpair : pairChar (0xd800 + (c.toNat - 0x10000) / 0x400) (0xdc00 + (c.toNat - 0x10000) % 0x400) = c := by
    have hcode : 0x10000 + (0xd800 + (c.toNat - 0x10000) / 0x400 - 0xd800) * 0x400 +
        (0xdc00 + (c.toNat - 0x10000) % 0x400 - 0xdc00) = c.toNat := by omega
    rw [pairChar, hcode, Char.ofNat_toNat]
  have hfirst := readHex4_hexDigits (n := 0xd800 + (c.toNat - 0x10000) / 0x400) (by omega)
  have hsecond := readHex4_hexDigits (n := 0xdc00 + (c.toNat - 0x10000) % 0x400) (by omega)
  have hread := readUnicodeEscape_of_halves (hfirst _) (hsecond rest) hhigh hlow
  rwa [hpair] at hread

theorem readCharacters_plain (opened : List Char) (fuel : Nat) (found : List Char) {c : Char} (rest : List Char)
    (hquote : c ≠ '"') (hslash : c ≠ '\\') (hcontrol : 0x20 ≤ c.toNat) :
    readCharacters opened (fuel + 1) found (c :: rest) = readCharacters opened fuel (c :: found) rest := by
  have hcontrol' : ¬ c.toNat < 0x20 := by omega
  simp [readCharacters, hquote, hslash, hcontrol']

theorem readCharacters_short (opened : List Char) (fuel : Nat) (found : List Char) {letter c : Char}
    (rest : List Char) (h : shortEscape? letter = some c) :
    readCharacters opened (fuel + 1) found ('\\' :: letter :: rest) = readCharacters opened fuel (c :: found) rest := by
  have hletter : letter ≠ 'u' := by
    rintro rfl
    simp [shortEscape?] at h
  simp [readCharacters, h]

theorem readCharacters_unicode (opened : List Char) (fuel : Nat) (found : List Char) {c : Char} {digits rest : List Char}
    (h : readUnicodeEscape digits = some (c, rest)) :
    readCharacters opened (fuel + 1) found ('\\' :: 'u' :: digits) = readCharacters opened fuel (c :: found) rest := by
  simp [readCharacters, h]

theorem readCharacters_escapeCode (opened : List Char) (fuel : Nat) (found : List Char) (c : Char) (rest : List Char) :
    readCharacters opened (fuel + 1) found (escapeCode c.toNat ++ rest) =
      readCharacters opened fuel (c :: found) rest := by
  unfold escapeCode
  split_ifs with hunit
  · rw [escapeUnit_append]
    exact readCharacters_unicode opened fuel found (readUnicodeEscape_unit hunit rest)
  · rw [List.append_assoc, escapeUnit_append]
    exact readCharacters_unicode opened fuel found (readUnicodeEscape_pair (Nat.le_of_not_lt hunit) rest)

section

variable (ascii : Bool)

theorem readCharacters_escapeChar (opened : List Char) (fuel : Nat) (found : List Char) (c : Char)
    (rest : List Char) : readCharacters opened (fuel + 1) found (escapeChar ascii c ++ rest) =
      readCharacters opened fuel (c :: found) rest := by
  unfold escapeChar
  simp only [Bool.or_eq_true, beq_iff_eq, Bool.and_eq_true, decide_eq_true_eq]
  split_ifs with hmark hfeed hreturn htab hback hform hescaped
  · rcases hmark with rfl | rfl
    · exact readCharacters_short opened fuel found rest rfl
    · exact readCharacters_short opened fuel found rest rfl
  · exact readCharacters_short opened fuel found rest (hfeed ▸ rfl)
  · exact readCharacters_short opened fuel found rest (hreturn ▸ rfl)
  · exact readCharacters_short opened fuel found rest (htab ▸ rfl)
  · have hc : Char.ofNat 8 = c := by rw [← hback, Char.ofNat_toNat]
    exact readCharacters_short opened fuel found rest (hc ▸ rfl)
  · have hc : Char.ofNat 12 = c := by rw [← hform, Char.ofNat_toNat]
    exact readCharacters_short opened fuel found rest (hc ▸ rfl)
  · exact readCharacters_escapeCode opened fuel found c rest
  · rw [not_or] at hmark hescaped
    exact readCharacters_plain opened fuel found rest hmark.1 hmark.2 (by omega)

theorem readCharacters_flatMap (opened : List Char) (cs found rest : List Char) {fuel : Nat} (hfuel : cs.length < fuel) :
    readCharacters opened fuel found (cs.flatMap (escapeChar ascii) ++ '"' :: rest) =
      .ok (found.reverse ++ cs, rest) := by
  induction cs generalizing found fuel with
  | nil =>
    obtain ⟨fuel, rfl⟩ := Nat.exists_eq_add_of_lt hfuel
    simp [readCharacters, pure, Except.pure]
  | cons c cs ih =>
    cases fuel with
    | zero => simp at hfuel
    | succ fuel =>
      rw [List.flatMap_cons, List.append_assoc, readCharacters_escapeChar, ih _ (by simpa using hfuel)]
      simp

theorem length_le_length_flatMap (cs : List Char) : cs.length ≤ (cs.flatMap (escapeChar ascii)).length := by
  have hone : ∀ c, 1 ≤ (escapeChar ascii c).length := by
    intro c
    unfold escapeChar escapeCode escapeUnit
    split_ifs <;> simp
  induction cs with
  | nil => simp
  | cons c cs ih =>
    have := hone c
    simp only [List.flatMap_cons, List.length_cons, List.length_append]
    omega

/-- **A string between quotes is read back.** -/
theorem readString_stringText (s : String) (rest : List Char) :
    readString (stringText ascii s ++ rest) = .ok (s, rest) := by
  unfold readString stringText
  have hfuel : s.toList.length < ('"' :: s.toList.flatMap (escapeChar ascii) ++ ['"'] ++ rest).length := by
    have := length_le_length_flatMap ascii s.toList
    simp only [List.length_append, List.length_cons]
    omega
  have hread := readCharacters_flatMap ascii ('"' :: s.toList.flatMap (escapeChar ascii) ++ ['"'] ++ rest) s.toList []
    rest hfuel
  simp only [List.cons_append, List.append_assoc, List.drop_succ_cons, List.drop_zero, List.nil_append] at hread ⊢
  rw [hread]
  simp [pure, Except.pure, bind, Except.bind]

end

/-! ## Numbers -/

/-- What may follow a number: something that no number goes on with. -/
def EndsNumber (rest : List Char) : Prop := ∀ c ∈ rest.head?, c.isDigit = false ∧ c ≠ '.' ∧ c ≠ 'e' ∧ c ≠ 'E'

theorem spanDigits_append {digits rest : List Char} (hdigits : ∀ c ∈ digits, c.isDigit = true)
    (hrest : ∀ c ∈ rest.head?, c.isDigit = false) : spanDigits (digits ++ rest) = (digits, rest) := by
  unfold spanDigits
  rw [List.takeWhile_append_of_pos hdigits, List.dropWhile_append_of_pos hdigits]
  cases rest with
  | nil => simp
  | cons c rest =>
    have hc : c.isDigit = false := hrest c rfl
    simp [hc]

theorem digitsValue_eq (cs : List Char) : digitsValue cs = Nat.ofDigitChars 10 cs 0 := by
  rw [Nat.ofDigitChars_eq_foldl]
  unfold digitsValue
  congr 1
  funext n c
  rw [Nat.mul_comm]
  rfl

theorem digitsValue_toDigits (n : Nat) : digitsValue (Nat.toDigits 10 n) = n := by
  rw [digitsValue_eq, Nat.ofDigitChars_ten_toDigits]

theorem readExponent_of_ends {rest : List Char} (h : EndsNumber rest) : readExponent rest = (none, rest) := by
  cases rest with
  | nil => rfl
  | cons c rest =>
    obtain ⟨-, -, he, hE⟩ := h c rfl
    simp [readExponent, he, hE]

theorem readPlaces_of_ends {rest : List Char} (h : EndsNumber rest) : readPlaces rest = ([], rest) := by
  cases rest with
  | nil => rfl
  | cons c rest =>
    obtain ⟨-, hpoint, -, -⟩ := h c rfl
    unfold readPlaces
    split
    · next heq => exact absurd (List.cons.inj heq).1 hpoint
    · rfl

/-- The digits in front of the places: a zero alone, or digits that do not start with zero. -/
def IsWhole (digits : List Char) : Prop :=
  digits = ['0'] ∨ digits ≠ [] ∧ digits.head? ≠ some '0' ∧ ∀ c ∈ digits, c.isDigit = true

theorem isWhole_toDigits (n : Nat) : IsWhole (Nat.toDigits 10 n) := by
  rcases Nat.eq_zero_or_pos n with rfl | hn
  · exact Or.inl rfl
  · exact Or.inr ⟨Nat.toDigits_ne_nil, head_toDigits_ne_zero hn, fun c => isDigit_of_mem_toDigits⟩

theorem readUnsigned_append {digits rest : List Char} (negative : Bool) (hdigits : IsWhole digits)
    (hrest : ∀ c ∈ rest.head?, c.isDigit = false) :
    readUnsigned negative (digits ++ rest) =
      let (places, rest') := readPlaces rest
      let (exponent, rest'') := readExponent rest'
      if places.isEmpty && exponent.isNone then
        some (.int ((if negative then -1 else 1) * digitsValue digits), rest'')
      else some (.decimal (scaled ((if negative then -1 else 1) * digitsValue (digits ++ places)) places.length
        (exponent.getD 0)), rest'') := by
  unfold readUnsigned
  rcases hdigits with rfl | ⟨hne, hhead, hall⟩
  · rfl
  · cases digits with
    | nil => exact absurd rfl hne
    | cons c cs =>
      have hc : c ≠ '0' := by simpa using hhead
      have hspan := spanDigits_append hall hrest
      rw [List.cons_append] at hspan ⊢
      simp [hc, hspan]

theorem readUnsigned_toDigits (negative : Bool) (n : Nat) {rest : List Char} (h : EndsNumber rest) :
    readUnsigned negative (Nat.toDigits 10 n ++ rest) = some (.int ((if negative then -1 else 1) * n), rest) := by
  rw [readUnsigned_append negative (isWhole_toDigits n) fun c hc => (h c hc).1]
  simp [readPlaces_of_ends h, readExponent_of_ends h, digitsValue_toDigits]

theorem readNumber_of_ne_dash {cs : List Char} (h : cs.head? ≠ some '-') : readNumber cs =
    match readUnsigned false cs with
    | some result => .ok result
    | none => .error (.valueExpected, cs) := by
  unfold readNumber
  cases cs with
  | nil => rfl
  | cons c cs =>
    have hc : c ≠ '-' := by simpa using h
    simp [hc]
    rfl

theorem head_append_ne_dash {digits : List Char} (rest : List Char) (h : IsWhole digits) :
    (digits ++ rest).head? ≠ some '-' := by
  rcases h with rfl | ⟨hne, -, hall⟩
  · simp
  · cases digits with
    | nil => exact absurd rfl hne
    | cons c cs =>
      have hc : c.isDigit = true := hall c List.mem_cons_self
      simp only [List.cons_append, List.head?_cons, ne_eq, Option.some.injEq]
      rintro rfl
      simp at hc

/-- **An integer is read back.** -/
theorem readNumber_integerText (n : Int) {rest : List Char} (h : EndsNumber rest) :
    readNumber (integerText n ++ rest) = .ok (.int n, rest) := by
  cases n with
  | ofNat n =>
    rw [integerText, readNumber_of_ne_dash (head_append_ne_dash rest (isWhole_toDigits n)),
      readUnsigned_toDigits false n h]
    simp
  | negSucc n =>
    rw [integerText, List.cons_append]
    simp only [readNumber]
    rw [readUnsigned_toDigits true (n + 1) h]
    simp [pure, Except.pure, Int.negSucc_eq]

/-! ## Decimals -/

theorem digitsValue_padDigits (width : Nat) (cs : List Char) :
    digitsValue (padDigits width cs) = digitsValue cs := by
  simp [digitsValue_eq, padDigits, Nat.ofDigitChars_append, Nat.ofDigitChars_replicate_zero]

theorem isDigit_of_mem_padDigits {width n : Nat} {c : Char} (hc : c ∈ padDigits width (Nat.toDigits 10 n)) :
    c.isDigit = true := by
  rcases List.mem_append.mp hc with hc | hc
  · rw [List.eq_of_mem_replicate hc]
    rfl
  · exact isDigit_of_mem_toDigits hc

theorem isWhole_take_padDigits (n : Nat) {places : Nat} (h : 0 < places) :
    IsWhole ((padDigits (places + 1) (Nat.toDigits 10 n)).take
      ((padDigits (places + 1) (Nat.toDigits 10 n)).length - places)) := by
  have hlength : (padDigits (places + 1) (Nat.toDigits 10 n)).length =
      places + 1 - (Nat.toDigits 10 n).length + (Nat.toDigits 10 n).length := by simp [padDigits]
  by_cases hpad : (Nat.toDigits 10 n).length ≤ places
  · -- the digits are padded to one more than the places, with a zero in front
    left
    have hone : (padDigits (places + 1) (Nat.toDigits 10 n)).length - places = 1 := by omega
    obtain ⟨k, hk⟩ : ∃ k, places + 1 - (Nat.toDigits 10 n).length = k + 1 :=
      ⟨places - (Nat.toDigits 10 n).length, by omega⟩
    rw [hone, padDigits, hk, List.replicate_succ]
    rfl
  · right
    have hnone : padDigits (places + 1) (Nat.toDigits 10 n) = Nat.toDigits 10 n := by
      have hzero : places + 1 - (Nat.toDigits 10 n).length = 0 := by omega
      rw [padDigits, hzero]
      rfl
    have hn : 0 < n := by
      by_contra hzero
      obtain rfl : n = 0 := by omega
      simp at hpad
      omega
    rw [hnone]
    have hhead := head_toDigits_ne_zero hn
    cases hdigits : Nat.toDigits 10 n with
    | nil => exact absurd hdigits Nat.toDigits_ne_nil
    | cons c cs =>
      rw [hdigits] at hhead hpad
      obtain ⟨k, hk⟩ : ∃ k, (c :: cs).length - places = k + 1 := ⟨(c :: cs).length - places - 1, by omega⟩
      rw [hk, List.take_succ_cons]
      refine ⟨by simp, by simpa using hhead, fun d hd => ?_⟩
      have hmem : d ∈ Nat.toDigits 10 n := by
        rw [hdigits]
        rcases List.mem_cons.mp hd with rfl | hd
        · exact List.mem_cons_self
        · exact List.mem_cons_of_mem _ (List.mem_of_mem_take hd)
      exact isDigit_of_mem_toDigits hmem

theorem trimPlaces_of_canonical {d : Decimal} (h : d.Canonical) : trimPlaces d.digits d.places = d := by
  obtain ⟨digits, places⟩ := d
  obtain ⟨hpos, hzero⟩ := h
  match places with
  | 0 => simp at hpos
  | 1 => rfl
  | places + 2 =>
    have hne : ¬ digits % 10 = 0 := by
      intro hmod
      have := hzero hmod
      simp at this
    simp [trimPlaces, hne]

theorem readUnsigned_decimal (negative : Bool) (n : Nat) {places : Nat} (hplaces : 0 < places) {digits : List Char}
    (hdigits : digits = padDigits (places + 1) (Nat.toDigits 10 n)) {rest : List Char} (h : EndsNumber rest) :
    readUnsigned negative
        (digits.take (digits.length - places) ++ '.' :: (digits.drop (digits.length - places) ++ rest)) =
      some (.decimal (trimPlaces ((if negative then -1 else 1) * n) places), rest) := by
  have hlength : digits.length = places + 1 - (Nat.toDigits 10 n).length + (Nat.toDigits 10 n).length := by
    simp [hdigits, padDigits]
  have hdrop : (digits.drop (digits.length - places)).length = places := by
    rw [List.length_drop]
    omega
  have hwhole : IsWhole (digits.take (digits.length - places)) := by
    rw [hdigits]
    exact isWhole_take_padDigits n hplaces
  have hvalue : digitsValue (digits.take (digits.length - places) ++ digits.drop (digits.length - places)) = n := by
    rw [List.take_append_drop, hdigits, digitsValue_padDigits, digitsValue_toDigits]
  have hplaced : readPlaces ('.' :: (digits.drop (digits.length - places) ++ rest)) =
      (digits.drop (digits.length - places), rest) := by
    have hall : ∀ c ∈ digits.drop (digits.length - places), c.isDigit = true := by
      intro c hc
      have hmem := List.mem_of_mem_drop hc
      rw [hdigits] at hmem
      exact isDigit_of_mem_padDigits hmem
    simp only [readPlaces]
    rw [spanDigits_append hall fun c hc => (h c hc).1]
    cases hcases : digits.drop (digits.length - places) with
    | nil =>
      rw [hcases] at hdrop
      simp at hdrop
      omega
    | cons c cs => rfl
  have hempty : (digits.drop (digits.length - places)).isEmpty = false := by
    rw [List.isEmpty_eq_false_iff, ← List.length_pos_iff]
    omega
  have hshift : ¬ (0 : Int) ≤ 0 - places := by omega
  have hplaces' : (-(0 - (places : Int))).toNat = places := by omega
  rw [readUnsigned_append negative hwhole (by simp), hplaced]
  simp only [readExponent_of_ends h, hempty, Bool.false_and, Bool.false_eq_true, if_false, Option.getD_none,
    hvalue, hdrop, scaled, if_neg hshift, hplaces']

/-- **A decimal is read back.** -/
theorem readNumber_decimal {d : Decimal} (hd : d.Canonical) {rest : List Char} (h : EndsNumber rest) :
    readNumber (d.text ++ rest) = .ok (.decimal d, rest) := by
  have hread := fun negative => readUnsigned_decimal negative d.digits.natAbs hd.1 rfl h
  unfold Decimal.text
  dsimp only
  by_cases hneg : d.digits < 0
  · have hdigits : -1 * (d.digits.natAbs : Int) = d.digits := by omega
    rw [if_pos hneg]
    simp only [List.cons_append, List.nil_append, List.append_assoc, readNumber]
    rw [hread true]
    simp only [if_true, hdigits, trimPlaces_of_canonical hd]
    rfl
  · have hdigits : 1 * (d.digits.natAbs : Int) = d.digits := by omega
    rw [if_neg hneg]
    simp only [List.cons_append, List.nil_append, List.append_assoc]
    rw [readNumber_of_ne_dash (head_append_ne_dash _ (isWhole_take_padDigits _ hd.1)), hread false]
    simp only [Bool.false_eq_true, if_false, hdigits, trimPlaces_of_canonical hd]

end ComponentDocs.Json

import ComponentDocs.Proofs.Json.Tokens

/-!
# Written values that are read back

Values are written in styles that differ in the spaces between tokens and in what is escaped. A value is read back
from any of them.

* `Json.Style`, `Json.written`: a style, and a value in it;
* `Json.weight`: how many nested calls the reader needs for a value;
* `Json.readValue_written`: a written value in front of something that does not go on with it is read back;
* **`Json.read_written`**: reading a written sound value returns the value.
-/

namespace ComponentDocs.Json

/-! ## Styles -/

/-- How values are written: whether what lies beyond ASCII is escaped, and the spaces in front of a first item, in front
of the next ones and in front of a closing bracket, each at a depth. -/
structure Style where
  ascii : Bool
  first : Nat → List Char
  next : Nat → List Char
  last : Nat → List Char
  isSpace_first : ∀ depth, ∀ c ∈ first depth, isSpace c = true
  isSpace_next : ∀ depth, ∀ c ∈ next depth, isSpace c = true
  isSpace_last : ∀ depth, ∀ c ∈ last depth, isSpace c = true

mutual

/-- The value at a depth in a style. -/
def written (style : Style) (depth : Nat) : Json → List Char
  | null => "null".toList
  | bool true => "true".toList
  | bool false => "false".toList
  | int value => integerText value
  | decimal value => value.text
  | str value => stringText style.ascii value
  | arr [] => "[]".toList
  | arr (item :: rest) =>
    '[' :: style.first (depth + 1) ++ written style (depth + 1) item ++ writtenItems style (depth + 1) rest
      ++ style.last depth ++ [']']
  | obj [] => ['\x7b', '\x7d']
  | obj ((name, value) :: rest) =>
    '\x7b' :: style.first (depth + 1) ++ stringText style.ascii name ++ ": ".toList ++ written style (depth + 1) value
      ++ writtenFields style (depth + 1) rest ++ style.last depth ++ ['\x7d']

/-- The items after the first. -/
def writtenItems (style : Style) (depth : Nat) : List Json → List Char
  | [] => []
  | item :: rest => ',' :: style.next depth ++ written style depth item ++ writtenItems style depth rest

/-- The fields after the first. -/
def writtenFields (style : Style) (depth : Nat) : List (String × Json) → List Char
  | [] => []
  | (name, value) :: rest =>
    ',' :: style.next depth ++ stringText style.ascii name ++ ": ".toList ++ written style depth value
      ++ writtenFields style depth rest

end

/-! ## Spaces -/

theorem skipSpace_of_head {cs : List Char} (h : ∀ c ∈ cs.head?, isSpace c = false) : skipSpace cs = cs := by
  cases cs with
  | nil => rfl
  | cons c cs =>
    have hc : isSpace c = false := h c rfl
    simp [skipSpace, hc]

theorem skipSpace_append {spaces : List Char} (h : ∀ c ∈ spaces, isSpace c = true) (cs : List Char) :
    skipSpace (spaces ++ cs) = skipSpace cs := List.dropWhile_append_of_pos h

theorem skipSpace_comma (cs : List Char) : skipSpace (',' :: cs) = ',' :: cs := rfl

theorem skipSpace_colon (cs : List Char) : skipSpace (':' :: cs) = ':' :: cs := rfl

theorem skipSpace_space (cs : List Char) : skipSpace (' ' :: cs) = skipSpace cs := rfl

/-! ## Starts of values -/

/-- A character with which a value starts. -/
def isStart (c : Char) : Bool :=
  c == 'n' || c == 't' || c == 'f' || c == '-' || c == '"' || c == '[' || c == '\x7b' || c.isDigit

theorem not_isSpace_of_isStart {c : Char} (h : isStart c = true) : isSpace c = false := by
  rw [Bool.eq_false_iff]
  intro hspace
  simp only [isSpace, Bool.or_eq_true, beq_iff_eq] at hspace
  rcases hspace with ((rfl | rfl) | rfl) | rfl <;> exact absurd h (by decide)

theorem exists_head_of_isWhole {digits : List Char} (h : IsWhole digits) (rest : List Char) :
    ∃ c, (digits ++ rest).head? = some c ∧ c.isDigit = true := by
  rcases h with rfl | ⟨hne, -, hall⟩
  · exact ⟨'0', rfl, rfl⟩
  · cases digits with
    | nil => exact absurd rfl hne
    | cons c cs => exact ⟨c, rfl, hall c List.mem_cons_self⟩

theorem exists_head_integerText (n : Int) (rest : List Char) :
    ∃ c, (integerText n ++ rest).head? = some c ∧ (c = '-' ∨ c.isDigit = true) := by
  cases n with
  | ofNat n =>
    obtain ⟨c, hc, hdigit⟩ := exists_head_of_isWhole (isWhole_toDigits n) rest
    exact ⟨c, hc, Or.inr hdigit⟩
  | negSucc n => exact ⟨'-', rfl, Or.inl rfl⟩

theorem exists_head_decimal {d : Decimal} (hd : d.Canonical) (rest : List Char) :
    ∃ c, (d.text ++ rest).head? = some c ∧ (c = '-' ∨ c.isDigit = true) := by
  unfold Decimal.text
  dsimp only
  by_cases hneg : d.digits < 0
  · exact ⟨'-', by simp [hneg], Or.inl rfl⟩
  · rw [if_neg hneg]
    simp only [List.nil_append, List.append_assoc]
    obtain ⟨c, hc, hdigit⟩ := exists_head_of_isWhole (isWhole_take_padDigits d.digits.natAbs hd.1)
      (['.'] ++ ((padDigits (d.places + 1) (Nat.toDigits 10 d.digits.natAbs)).drop
        ((padDigits (d.places + 1) (Nat.toDigits 10 d.digits.natAbs)).length - d.places) ++ rest))
    exact ⟨c, hc, Or.inr hdigit⟩

theorem isStart_of_number {c : Char} (h : c = '-' ∨ c.isDigit = true) : isStart c = true := by
  rcases h with rfl | h
  · decide
  · simp [isStart, h]

theorem endsNumber_cons {c : Char} {rest : List Char} (h : c.isDigit = false ∧ c ≠ '.' ∧ c ≠ 'e' ∧ c ≠ 'E') :
    EndsNumber (c :: rest) := by
  intro d hd
  cases hd
  exact h

/-! ## Nesting -/

mutual

/-- How many nested calls the reader needs for a value. -/
def weight : Json → Nat
  | null => 1
  | bool _ => 1
  | int _ => 1
  | decimal _ => 1
  | str _ => 1
  | arr items => weightItems items + 1
  | obj fields => weightFields fields + 1

/-- How many nested calls the reader needs for items. -/
def weightItems : List Json → Nat
  | [] => 0
  | item :: rest => weight item + weightItems rest + 1

/-- How many nested calls the reader needs for fields. -/
def weightFields : List (String × Json) → Nat
  | [] => 0
  | (_, value) :: rest => weight value + weightFields rest + 1

end

theorem readValue_number {fuel : Nat} {cs : List Char} {c : Char} (hc : cs.head? = some c)
    (h : c = '-' ∨ c.isDigit = true) : readValue (fuel + 1) cs = readNumber cs := by
  cases cs with
  | nil => simp at hc
  | cons d cs =>
    cases hc
    have hne : c ≠ '"' ∧ c ≠ '[' ∧ c ≠ '\x7b' ∧ c ≠ 'n' ∧ c ≠ 't' ∧ c ≠ 'f' := by
      refine ⟨?_, ?_, ?_, ?_, ?_, ?_⟩ <;> (rintro rfl; revert h; decide)
    obtain ⟨h1, h2, h3, h4, h5, h6⟩ := hne
    rw [readValue]
    · exact fun _ heq => h1 (List.cons.inj heq).1
    · exact fun _ heq => h2 (List.cons.inj heq).1
    · exact fun _ heq => h3 (List.cons.inj heq).1
    · exact fun _ heq => h4 (List.cons.inj heq).1
    · exact fun _ heq => h5 (List.cons.inj heq).1
    · exact fun _ heq => h6 (List.cons.inj heq).1

/-! ## Reading -/

theorem readValue_arr {fuel : Nat} {cs rest : List Char} {items : List Json} {c : Char}
    (hc : (skipSpace cs).head? = some c) (hstart : isStart c = true)
    (h : readItems fuel (skipSpace cs) = .ok (items, rest)) :
    readValue (fuel + 1) ('[' :: cs) = .ok (.arr items, rest) := by
  have hne : c ≠ ']' := by
    rintro rfl
    exact absurd hstart (by decide)
  rw [readValue]
  cases hskip : skipSpace cs with
  | nil => simp [hskip] at hc
  | cons d ds =>
    rw [hskip] at hc h
    cases hc
    dsimp only
    split
    · next heq => exact absurd (List.cons.inj heq).1 hne
    · rw [h]
      rfl

theorem readValue_obj {fuel : Nat} {cs rest : List Char} {fields : List (String × Json)}
    (hc : (skipSpace cs).head? = some '"') (h : readFields fuel (skipSpace cs) = .ok (fields, rest)) :
    readValue (fuel + 1) ('\x7b' :: cs) = .ok (.obj (Fields.ofList fields), rest) := by
  rw [readValue]
  cases hskip : skipSpace cs with
  | nil => simp [hskip] at hc
  | cons d ds =>
    rw [hskip] at hc h
    cases hc
    dsimp only
    split
    · next heq => exact absurd (List.cons.inj heq).1 (by decide)
    · rw [h]
      rfl

section

variable (style : Style)

/-- A written value starts as values do. -/
theorem exists_head_written (depth : Nat) {v : Json} (hv : v.Sound) (rest : List Char) :
    ∃ c, (written style depth v ++ rest).head? = some c ∧ isStart c = true := by
  cases v with
  | null => exact ⟨'n', by simp [written], by decide⟩
  | bool b =>
    cases b with
    | false => exact ⟨'f', by simp [written], by decide⟩
    | true => exact ⟨'t', by simp [written], by decide⟩
  | int n =>
    obtain ⟨c, hc, hnumber⟩ := exists_head_integerText n rest
    exact ⟨c, by simpa [written] using hc, isStart_of_number hnumber⟩
  | decimal d =>
    obtain ⟨c, hc, hnumber⟩ := exists_head_decimal (by simpa [Sound] using hv) rest
    exact ⟨c, by simpa [written] using hc, isStart_of_number hnumber⟩
  | str s => exact ⟨'"', by simp [written, stringText], by decide⟩
  | arr items => cases items <;> exact ⟨'[', by simp [written], by decide⟩
  | obj fields => rcases fields with _ | ⟨⟨name, value⟩, more⟩ <;> exact ⟨'\x7b', by simp [written], by decide⟩

theorem skipSpace_written (depth : Nat) {v : Json} (hv : v.Sound) (rest : List Char) :
    skipSpace (written style depth v ++ rest) = written style depth v ++ rest := by
  apply skipSpace_of_head
  intro c hc
  obtain ⟨d, hd, hstart⟩ := exists_head_written style depth hv rest
  rw [hd] at hc
  cases hc
  exact not_isSpace_of_isStart hstart

theorem skipSpace_last (depth : Nat) {c : Char} (hc : isSpace c = false) (rest : List Char) :
    skipSpace (style.last depth ++ c :: rest) = c :: rest := by
  rw [skipSpace_append (style.isSpace_last depth)]
  exact skipSpace_of_head fun d hd => by rwa [← Option.some.inj hd]

/-- What follows a value inside brackets does not go on with a number. -/
theorem endsNumber_last (depth : Nat) {c : Char} (hends : c.isDigit = false ∧ c ≠ '.' ∧ c ≠ 'e' ∧ c ≠ 'E')
    (rest : List Char) : EndsNumber (style.last depth ++ c :: rest) := by
  cases hlast : style.last depth with
  | nil => exact endsNumber_cons hends
  | cons d ds =>
    have hd : isSpace d = true := style.isSpace_last depth d (by rw [hlast]; exact List.mem_cons_self)
    refine endsNumber_cons ?_
    simp only [isSpace, Bool.or_eq_true, beq_iff_eq] at hd
    rcases hd with ((rfl | rfl) | rfl) | rfl <;> decide

/-- The items of a list as they stand between its brackets. -/
def listed (depth : Nat) : List Json → List Char
  | [] => []
  | item :: rest => written style depth item ++ writtenItems style depth rest

/-- The fields of an object as they stand between its braces. -/
def listedFields (depth : Nat) : List (String × Json) → List Char
  | [] => []
  | (name, value) :: rest =>
    stringText style.ascii name ++ (": ".toList ++ (written style depth value ++ writtenFields style depth rest))

theorem endsNumber_writtenItems (depth outer : Nat) (items : List Json) (rest : List Char) :
    EndsNumber (writtenItems style depth items ++ (style.last outer ++ ']' :: rest)) := by
  cases items with
  | nil => exact endsNumber_last style outer (by decide) rest
  | cons item items => exact endsNumber_cons (by decide)

theorem endsNumber_writtenFields (depth outer : Nat) (fields : List (String × Json)) (rest : List Char) :
    EndsNumber (writtenFields style depth fields ++ (style.last outer ++ '\x7d' :: rest)) := by
  rcases fields with _ | ⟨⟨name, value⟩, fields⟩
  · exact endsNumber_last style outer (by decide) rest
  · exact endsNumber_cons (by decide)

theorem exists_listedFields (depth : Nat) (field : String × Json) (fields : List (String × Json)) (rest : List Char) :
    ∃ cs, listedFields style depth (field :: fields) ++ rest = '"' :: cs := ⟨_, rfl⟩

section

variable (depth : Nat) (item : Json) (items : List Json) (field : String × Json) (fields : List (String × Json))
  (rest : List Char)

theorem written_arr_append : written style depth (arr (item :: items)) ++ rest = '[' :: (style.first (depth + 1) ++
    (listed style (depth + 1) (item :: items) ++ (style.last depth ++ ']' :: rest))) := by
  simp [written, listed]

theorem written_obj_append : written style depth (obj (field :: fields)) ++ rest = '\x7b' :: (style.first (depth + 1) ++
    (listedFields style (depth + 1) (field :: fields) ++ (style.last depth ++ '\x7d' :: rest))) := by
  simp [written, listedFields]

theorem writtenItems_append : writtenItems style depth (item :: items) ++ rest =
    ',' :: (style.next depth ++ (listed style depth (item :: items) ++ rest)) := by
  simp [writtenItems, listed]

theorem writtenFields_append : writtenFields style depth (field :: fields) ++ rest =
    ',' :: (style.next depth ++ (listedFields style depth (field :: fields) ++ rest)) := by
  simp [writtenFields, listedFields]

variable {item} {space : List Char} (hspace : ∀ c ∈ space, isSpace c = true)
include hspace

/-- Space in front of items is skipped, and nothing of the items. -/
theorem skipSpace_listed (hitem : item.Sound) : skipSpace (space ++ (listed style depth (item :: items) ++ rest)) =
    listed style depth (item :: items) ++ rest := by
  rw [skipSpace_append hspace, listed, List.append_assoc, skipSpace_written style depth hitem]

theorem skipSpace_listedFields : skipSpace (space ++ (listedFields style depth (field :: fields) ++ rest)) =
    listedFields style depth (field :: fields) ++ rest := by
  obtain ⟨cs, hcs⟩ := exists_listedFields style depth field fields rest
  rw [skipSpace_append hspace, hcs]
  rfl

end

mutual

/-- **A written value in front of something that does not go on with it is read back.** -/
theorem readValue_written (depth : Nat) (v : Json) (hv : v.Sound) {rest : List Char} (hrest : EndsNumber rest)
    {fuel : Nat} (hfuel : weight v ≤ fuel) : readValue fuel (written style depth v ++ rest) = .ok (v, rest) := by
  obtain ⟨fuel, rfl⟩ : ∃ k, fuel = k + 1 := ⟨fuel - 1, by cases v <;> simp only [weight] at hfuel <;> omega⟩
  cases v with
  | null => simp [written, readValue, pure, Except.pure]
  | bool b => cases b <;> simp [written, readValue, pure, Except.pure]
  | int n =>
    obtain ⟨c, hc, hnumber⟩ := exists_head_integerText n rest
    rw [written, readValue_number hc hnumber, readNumber_integerText n hrest]
  | decimal d =>
    have hd : d.Canonical := by simpa [Sound] using hv
    obtain ⟨c, hc, hnumber⟩ := exists_head_decimal hd rest
    rw [written, readValue_number hc hnumber, readNumber_decimal hd hrest]
  | str s =>
    have hread := readString_stringText style.ascii s rest
    simp only [written, stringText, List.cons_append, readValue] at hread ⊢
    rw [hread]
    rfl
  | arr items =>
    cases items with
    | nil => simp [written, readValue, skipSpace, isSpace, pure, Except.pure]
    | cons item items =>
      have hsound : SoundItems (item :: items) := by simpa only [Sound] using hv
      have hweight : weightItems (item :: items) ≤ fuel := by simpa only [weight, Nat.add_le_add_iff_right] using hfuel
      have hskip := skipSpace_listed style (depth + 1) items (style.last depth ++ ']' :: rest)
        (style.isSpace_first (depth + 1)) hsound.1
      obtain ⟨c, hc, hstart⟩ := exists_head_written style (depth + 1) hsound.1
        (writtenItems style (depth + 1) items ++ (style.last depth ++ ']' :: rest))
      rw [written_arr_append]
      apply readValue_arr (c := c)
      · rw [hskip, listed, List.append_assoc]
        exact hc
      · exact hstart
      · rw [hskip]
        exact readItems_listed (depth + 1) depth (item :: items) (by simp) hsound rest hweight
  | obj fields =>
    rcases fields with _ | ⟨field, fields⟩
    · simp [written, readValue, skipSpace, isSpace, pure, Except.pure]
    · have hsound : (Fields.names (field :: fields)).Nodup ∧ SoundFields (field :: fields) := by
        simpa only [Sound] using hv
      have hweight : weightFields (field :: fields) ≤ fuel := by
        simpa only [weight, Nat.add_le_add_iff_right] using hfuel
      obtain ⟨cs, hcs⟩ := exists_listedFields style (depth + 1) field fields (style.last depth ++ '\x7d' :: rest)
      have hskip := skipSpace_listedFields style (depth + 1) field fields (style.last depth ++ '\x7d' :: rest)
        (style.isSpace_first (depth + 1))
      have hread : readValue (fuel + 1) (written style depth (obj (field :: fields)) ++ rest) =
          .ok (.obj (Fields.ofList (field :: fields)), rest) := by
        rw [written_obj_append]
        apply readValue_obj
        · rw [hskip, hcs]
          rfl
        · rw [hskip]
          exact readFields_listed (depth + 1) depth (field :: fields) (by simp) hsound.2 rest hweight
      rw [hread, Fields.ofList, Fields.merge_nil_left hsound.1]

theorem readItems_listed (depth outer : Nat) (items : List Json) (hne : items ≠ []) (hitems : SoundItems items)
    (rest : List Char) {fuel : Nat} (hfuel : weightItems items ≤ fuel) :
    readItems fuel (listed style depth items ++ (style.last outer ++ ']' :: rest)) = .ok (items, rest) := by
  cases items with
  | nil => exact absurd rfl hne
  | cons item items =>
    simp only [weightItems] at hfuel
    obtain ⟨fuel, rfl⟩ : ∃ k, fuel = k + 1 := ⟨fuel - 1, by omega⟩
    have hitem := readValue_written depth item hitems.1 (endsNumber_writtenItems style depth outer items rest)
      (show weight item ≤ fuel by omega)
    rw [listed, List.append_assoc, readItems, hitem]
    cases items with
    | nil =>
      have hskip := skipSpace_last style outer (c := ']') (by decide) rest
      simp [writtenItems, hskip, bind, Except.bind, pure, Except.pure]
    | cons next items =>
      have hnext := readItems_listed depth outer (next :: items) (by simp) hitems.2 rest
        (show weightItems (next :: items) ≤ fuel by omega)
      have hskip := skipSpace_listed style depth items (style.last outer ++ ']' :: rest) (style.isSpace_next depth)
        hitems.2.1
      rw [writtenItems_append]
      simp only [bind, Except.bind]
      simp only [skipSpace_comma, hskip, hnext]
      rfl

theorem readFields_listed (depth outer : Nat) (fields : List (String × Json)) (hne : fields ≠ [])
    (hfields : SoundFields fields) (rest : List Char) {fuel : Nat} (hfuel : weightFields fields ≤ fuel) :
    readFields fuel (listedFields style depth fields ++ (style.last outer ++ '\x7d' :: rest)) = .ok (fields, rest) := by
  rcases fields with _ | ⟨⟨name, value⟩, fields⟩
  · exact absurd rfl hne
  · simp only [weightFields] at hfuel
    obtain ⟨fuel, rfl⟩ : ∃ k, fuel = k + 1 := ⟨fuel - 1, by omega⟩
    have hvalue := readValue_written depth value hfields.1 (endsNumber_writtenFields style depth outer fields rest)
      (show weight value ≤ fuel by omega)
    have hname : readString (listedFields style depth ((name, value) :: fields) ++ (style.last outer ++ '\x7d' :: rest)) =
        .ok (name, ':' :: ' ' :: (written style depth value ++
          (writtenFields style depth fields ++ (style.last outer ++ '\x7d' :: rest)))) := by
      rw [listedFields, List.append_assoc, readString_stringText]
      simp
    obtain ⟨cs, hcs⟩ := exists_listedFields style depth (name, value) fields (style.last outer ++ '\x7d' :: rest)
    rw [hcs] at hname ⊢
    rw [readFields, hname]
    simp only [bind, Except.bind, skipSpace_colon, skipSpace_space, skipSpace_written style depth hfields.1, hvalue]
    rcases fields with _ | ⟨next, fields⟩
    · have hskip := skipSpace_last style outer (c := '\x7d') (by decide) rest
      simp [writtenFields, hskip, pure, Except.pure]
    · have hnext := readFields_listed depth outer (next :: fields) (by simp) hfields.2 rest
        (show weightFields (next :: fields) ≤ fuel by omega)
      have hskip := skipSpace_listedFields style depth next fields (style.last outer ++ '\x7d' :: rest)
        (style.isSpace_next depth)
      rw [writtenFields_append]
      simp only [skipSpace_comma, hskip, hnext]
      rfl

end

/-! ## Whole texts -/

mutual

/-- A text is long enough for the nesting of its value. -/
theorem weight_le_length (depth : Nat) (v : Json) : weight v ≤ 2 * (written style depth v).length := by
  cases v with
  | null => simp [weight, written]
  | bool b => cases b <;> simp [weight, written]
  | int n =>
    have hne : integerText n ≠ [] := by cases n <;> simp [integerText]
    have := List.length_pos_iff.mpr hne
    simp only [weight, written]
    omega
  | decimal d => simp [weight, written, Decimal.text]; omega
  | str s => simp [weight, written, stringText]; omega
  | arr items =>
    cases items with
    | nil => simp [weight, weightItems, written]
    | cons item items =>
      have hitem := weight_le_length (depth + 1) item
      have hitems := weightItems_le_length (depth + 1) items
      simp only [weight, weightItems, written, List.length_append, List.length_cons, List.length_nil]
      omega
  | obj fields =>
    rcases fields with _ | ⟨⟨name, value⟩, fields⟩
    · simp [weight, weightFields, written]
    · have hvalue := weight_le_length (depth + 1) value
      have hfields := weightFields_le_length (depth + 1) fields
      simp only [weight, weightFields, written, List.length_append, List.length_cons, List.length_nil]
      omega

theorem weightItems_le_length (depth : Nat) (items : List Json) :
    weightItems items ≤ 2 * (writtenItems style depth items).length := by
  cases items with
  | nil => simp [weightItems]
  | cons item items =>
    have hitem := weight_le_length depth item
    have hitems := weightItems_le_length depth items
    simp only [weightItems, writtenItems, List.length_append, List.length_cons]
    omega

theorem weightFields_le_length (depth : Nat) (fields : List (String × Json)) :
    weightFields fields ≤ 2 * (writtenFields style depth fields).length := by
  rcases fields with _ | ⟨⟨name, value⟩, fields⟩
  · simp [weightFields]
  · have hvalue := weight_le_length depth value
    have hfields := weightFields_le_length depth fields
    simp only [weightFields, writtenFields, List.length_append, List.length_cons]
    omega

end

theorem readAll_written {v : Json} (hv : v.Sound) : readAll (written style 0 v) = .ok v := by
  have hweight : weight v ≤ 2 * (written style 0 v).length + 2 := Nat.le_add_right_of_le (weight_le_length style 0 v)
  have hends : EndsNumber [] := by simp [EndsNumber]
  have hread := readValue_written style 0 v hv hends hweight
  have hskip := skipSpace_written style 0 hv []
  rw [List.append_nil] at hread hskip
  unfold readAll
  rw [hskip, hread]
  rfl

/-- **Reading a written sound value returns the value.** -/
theorem read_written {v : Json} (hv : v.Sound) : read (String.ofList (written style 0 v)) = .ok v := by
  obtain ⟨c, hc, hstart⟩ := exists_head_written style 0 hv []
  rw [List.append_nil] at hc
  unfold read
  rw [String.toList_ofList]
  cases htext : written style 0 v with
  | nil => simp [htext] at hc
  | cons d ds =>
    rw [htext] at hc
    cases hc
    have hmark : ¬ c.toNat = 0xfeff := by
      intro hnat
      have hc : c = Char.ofNat 0xfeff := by rw [← hnat, Char.ofNat_toNat]
      rw [hc] at hstart
      exact absurd hstart (by decide)
    simp only [if_neg hmark]
    rw [← htext, readAll_written style hv]
    rfl

end

end ComponentDocs.Json

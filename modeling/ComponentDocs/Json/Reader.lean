import ComponentDocs.Json.Basic

/-!
# Reading JSON

A strict reader. It keeps the order of fields, and of a name that is repeated the last value at the
first place. A text that is no JSON is refused with the place where reading stopped.

* `Json.read`: the value of a text, or the `Json.Failure`;
* `Json.Failure.message`: the failure in words, with line, column and index.
-/

namespace ComponentDocs

namespace Json

/-! ## Failures -/

/-- What was wrong. -/
inductive Problem where
  | byteOrderMark
  | valueExpected
  | nameExpected
  | colonExpected
  | commaExpected
  | extraText
  | openString
  | controlCharacter
  | badEscape
  | badUnicodeEscape
deriving DecidableEq, Repr

/-- The problem in words. -/
def Problem.message : Problem → String
  | byteOrderMark => "Unexpected UTF-8 BOM (decode using utf-8-sig)"
  | valueExpected => "Expecting value"
  | nameExpected => "Expecting property name enclosed in double quotes"
  | colonExpected => "Expecting ':' delimiter"
  | commaExpected => "Expecting ',' delimiter"
  | extraText => "Extra data"
  | openString => "Unterminated string starting at"
  | controlCharacter => "Invalid control character at"
  | badEscape => "Invalid \\escape"
  | badUnicodeEscape => "Invalid \\uXXXX escape"

/-- A problem and the number of characters in front of it, its line, and its column in that line. -/
structure Failure where
  problem : Problem
  index : Nat
  line : Nat
  column : Nat
deriving DecidableEq, Repr

/-- The failure in words. -/
def Failure.message (failure : Failure) : String :=
  failure.problem.message ++ ": line " ++ toString failure.line ++ " column " ++ toString failure.column
    ++ " (char " ++ toString failure.index ++ ")"

/-- A problem and the text from its place on. -/
abbrev Stop := Problem × List Char

/-- What a reader takes from the start of a text, with the text after it, or where it stopped. -/
abbrev Reading := Except Stop

def Stop.failure (text : List Char) (stop : Stop) : Failure :=
  let index := text.length - stop.2.length
  let before := text.take index
  { problem := stop.1, index, line := before.count '\n' + 1,
    column := (before.reverse.takeWhile (· ≠ '\n')).length + 1 }

/-! ## Tokens -/

/-- The characters that may stand between tokens. -/
def isSpace (c : Char) : Bool := c == ' ' || c == '\t' || c == '\n' || c == '\r'

/-- The text after the spaces at its start. -/
def skipSpace (cs : List Char) : List Char := cs.dropWhile isSpace

/-- The value of a hexadecimal digit. -/
def hexValue? (c : Char) : Option Nat :=
  if '0' ≤ c && c ≤ '9' then some (c.toNat - 0x30)
  else if 'a' ≤ c && c ≤ 'f' then some (c.toNat - 0x57)
  else if 'A' ≤ c && c ≤ 'F' then some (c.toNat - 0x37)
  else none

/-- The number of four hexadecimal digits at the start. -/
def readHex4 : List Char → Option (Nat × List Char)
  | a :: b :: c :: d :: rest => do
    let a ← hexValue? a
    let b ← hexValue? b
    let c ← hexValue? c
    let d ← hexValue? d
    pure (((a * 16 + b) * 16 + c) * 16 + d, rest)
  | _ => none

/-- The unit is the first half of a pair. -/
def isHighUnit (unit : Nat) : Bool := 0xd800 ≤ unit && unit < 0xdc00

/-- The unit is the second half of a pair. -/
def isLowUnit (unit : Nat) : Bool := 0xdc00 ≤ unit && unit < 0xe000

/-- The character of a unit; half a pair becomes the replacement character. -/
def unitChar (unit : Nat) : Char :=
  if isHighUnit unit || isLowUnit unit then Char.ofNat 0xfffd else Char.ofNat unit

/-- The character of a pair of units. -/
def pairChar (high low : Nat) : Char :=
  Char.ofNat (0x10000 + (high - 0xd800) * 0x400 + (low - 0xdc00))

/-- The character of an escape whose four digits start the text. -/
def readUnicodeEscape (cs : List Char) : Option (Char × List Char) := do
  let (unit, rest) ← readHex4 cs
  if isHighUnit unit then
    match rest with
    | '\\' :: 'u' :: rest' =>
      match readHex4 rest' with
      | some (low, rest'') =>
        if isLowUnit low then pure (pairChar unit low, rest'') else pure (unitChar unit, rest)
      | none => pure (unitChar unit, rest)
    | _ => pure (unitChar unit, rest)
  else pure (unitChar unit, rest)

/-- The character that an escape of one letter stands for. -/
def shortEscape? (c : Char) : Option Char :=
  if c == '"' || c == '\\' || c == '/' then some c
  else if c == 'n' then some '\n'
  else if c == 't' then some '\t'
  else if c == 'r' then some '\r'
  else if c == 'b' then some (Char.ofNat 8)
  else if c == 'f' then some (Char.ofNat 12)
  else none

/-- The characters of a string up to its closing quote. `opened` is the text from the opening quote
on and `found` what was read, last character first. -/
def readCharacters (opened : List Char) : Nat → List Char → List Char → Reading (List Char × List Char)
  | 0, _, _ => throw (.openString, opened)
  | _, _, [] => throw (.openString, opened)
  | fuel + 1, found, c :: rest =>
    if c == '"' then pure (found.reverse, rest)
    else if c.toNat < 0x20 then throw (.controlCharacter, c :: rest)
    else if c == '\\' then
      match rest with
      | [] => throw (.openString, opened)
      | 'u' :: rest' =>
        match readUnicodeEscape rest' with
        | some (read, rest'') => readCharacters opened fuel (read :: found) rest''
        | none => throw (.badUnicodeEscape, 'u' :: rest')
      | letter :: rest' =>
        match shortEscape? letter with
        | some read => readCharacters opened fuel (read :: found) rest'
        | none => throw (.badEscape, c :: rest)
    else readCharacters opened fuel (c :: found) rest

/-- The string whose opening quote starts the text. -/
def readString (cs : List Char) : Reading (String × List Char) := do
  let (found, rest) ← readCharacters cs cs.length [] (cs.drop 1)
  pure (String.ofList found, rest)

/-! ## Numbers -/

/-- The number that ASCII digits write. -/
def digitsValue (cs : List Char) : Nat := cs.foldl (fun n c => n * 10 + (c.toNat - 0x30)) 0

/-- The digits at the start, and what follows them. -/
def spanDigits (cs : List Char) : List Char × List Char := (cs.takeWhile Char.isDigit, cs.dropWhile Char.isDigit)

/-- The places of a number: a point and at least one digit. -/
def readPlaces : List Char → List Char × List Char
  | '.' :: rest =>
    match spanDigits rest with
    | ([], _) => ([], '.' :: rest)
    | (places, rest') => (places, rest')
  | cs => ([], cs)

/-- The exponent of a number. -/
def readExponent : List Char → Option Int × List Char
  | [] => (none, [])
  | e :: rest =>
    if e == 'e' || e == 'E' then
      let (negative, digits) := match rest with
        | '+' :: rest' => (false, rest')
        | '-' :: rest' => (true, rest')
        | _ => (false, rest)
      match spanDigits digits with
      | ([], _) => (none, e :: rest)
      | (found, rest') =>
        (some (if negative then -(digitsValue found : Int) else digitsValue found), rest')
    else (none, e :: rest)

/-- A decimal without needless zeros at the end of its places, and with at least one place. -/
def trimPlaces (digits : Int) : Nat → Decimal
  | 0 => ⟨digits * 10, 1⟩
  | 1 => ⟨digits, 1⟩
  | places + 2 => if digits % 10 = 0 then trimPlaces (digits / 10) (places + 1) else ⟨digits, places + 2⟩

/-- The number `digits * 10 ^ (exponent - places)`. -/
def scaled (digits : Int) (places : Nat) (exponent : Int) : Decimal :=
  let shift := exponent - places
  if 0 ≤ shift then ⟨digits * Int.pow 10 (shift.toNat + 1), 1⟩ else trimPlaces digits (-shift).toNat

/-- The number whose digits start the text. -/
def readUnsigned (negative : Bool) (cs : List Char) : Option (Json × List Char) :=
  let sign : Int := if negative then -1 else 1
  let whole := match cs with
    | '0' :: rest => (['0'], rest)
    | _ => spanDigits cs
  match whole with
  | ([], _) => none
  | (digits, rest) =>
    let (places, rest') := readPlaces rest
    let (exponent, rest'') := readExponent rest'
    if places.isEmpty && exponent.isNone then some (.int (sign * digitsValue digits), rest'')
    else
      some (.decimal (scaled (sign * digitsValue (digits ++ places)) places.length (exponent.getD 0)), rest'')

/-- The number that starts the text. -/
def readNumber (cs : List Char) : Reading (Json × List Char) :=
  let found := match cs with
    | '-' :: rest => readUnsigned true rest
    | _ => readUnsigned false cs
  match found with
  | some result => pure result
  | none => throw (.valueExpected, cs)

/-! ## Values -/

mutual

/-- The value that starts the text. -/
def readValue : Nat → List Char → Reading (Json × List Char)
  | 0, cs => throw (.valueExpected, cs)
  | fuel + 1, cs =>
    match cs with
    | '"' :: _ => do
      let (s, rest) ← readString cs
      pure (.str s, rest)
    | '[' :: rest =>
      match skipSpace rest with
      | ']' :: rest' => pure (.arr [], rest')
      | rest' => do
        let (items, rest'') ← readItems fuel rest'
        pure (.arr items, rest'')
    | '\x7b' :: rest =>
      match skipSpace rest with
      | '\x7d' :: rest' => pure (.obj [], rest')
      | rest' => do
        let (fields, rest'') ← readFields fuel rest'
        pure (.obj (Fields.ofList fields), rest'')
    | 'n' :: 'u' :: 'l' :: 'l' :: rest => pure (.null, rest)
    | 't' :: 'r' :: 'u' :: 'e' :: rest => pure (.bool true, rest)
    | 'f' :: 'a' :: 'l' :: 's' :: 'e' :: rest => pure (.bool false, rest)
    | _ => readNumber cs

/-- The items of a list up to its closing bracket. -/
def readItems : Nat → List Char → Reading (List Json × List Char)
  | 0, cs => throw (.valueExpected, cs)
  | fuel + 1, cs => do
    let (item, rest) ← readValue fuel cs
    match skipSpace rest with
    | ']' :: rest' => pure ([item], rest')
    | ',' :: rest' =>
      let (items, rest'') ← readItems fuel (skipSpace rest')
      pure (item :: items, rest'')
    | rest' => throw (.commaExpected, rest')

/-- The fields of an object up to its closing brace. -/
def readFields : Nat → List Char → Reading (List (String × Json) × List Char)
  | 0, cs => throw (.nameExpected, cs)
  | fuel + 1, cs =>
    match cs with
    | '"' :: _ => do
      let (name, rest) ← readString cs
      match skipSpace rest with
      | ':' :: rest' =>
        let (value, rest'') ← readValue fuel (skipSpace rest')
        match skipSpace rest'' with
        | '\x7d' :: rest''' => pure ([(name, value)], rest''')
        | ',' :: rest''' =>
          let (fields, rest4) ← readFields fuel (skipSpace rest''')
          pure ((name, value) :: fields, rest4)
        | rest''' => throw (.commaExpected, rest''')
      | rest' => throw (.colonExpected, rest')
    | _ => throw (.nameExpected, cs)

end

/-- The value that the whole text writes, between spaces. Every nested value takes a character, so
twice the length of the text bounds the nesting of calls. -/
def readAll (cs : List Char) : Except Stop Json := do
  let (value, rest) ← readValue (2 * cs.length + 2) (skipSpace cs)
  match skipSpace rest with
  | [] => pure value
  | rest' => throw (.extraText, rest')

/-- The value of a text. -/
def read (s : String) : Except Failure Json :=
  let cs := s.toList
  match cs with
  | [] => throw (Stop.failure cs (.valueExpected, cs))
  | first :: _ =>
    if first.toNat = 0xfeff then throw (Stop.failure cs (.byteOrderMark, cs))
    else (readAll cs).mapError (Stop.failure cs)

end Json

end ComponentDocs

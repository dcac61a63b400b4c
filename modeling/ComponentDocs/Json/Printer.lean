import ComponentDocs.Json.Basic

/-!
# Writing JSON

Two forms are written. The compact form is one line of ASCII; it is hashed, with sorted keys, and put
into graph attributes. The indented form is put into files and keeps characters beyond ASCII.

* `Json.compact`, `Json.compactText`;
* `Json.canonical`: the keys of every object sorted, so that equal values have equal texts;
* `Json.indented`, `Json.indentedText`.
-/

namespace ComponentDocs

namespace Json

/-! ## Strings -/

/-- The escape of a UTF-16 unit. -/
def escapeUnit (unit : Nat) : List Char := ['\\', 'u'] ++ Text.hexDigits 4 unit

/-- The escape of a character, in two units if it needs them. -/
def escapeCode (code : Nat) : List Char :=
  if code < 0x10000 then escapeUnit code
  else escapeUnit (0xd800 + (code - 0x10000) / 0x400) ++ escapeUnit (0xdc00 + (code - 0x10000) % 0x400)

/-- A character inside a string; `ascii` says that what lies beyond the printable ASCII characters is
escaped. -/
def escapeChar (ascii : Bool) (c : Char) : List Char :=
  if c == '"' || c == '\\' then ['\\', c]
  else if c == '\n' then ['\\', 'n']
  else if c == '\r' then ['\\', 'r']
  else if c == '\t' then ['\\', 't']
  else if c.toNat == 8 then ['\\', 'b']
  else if c.toNat == 12 then ['\\', 'f']
  else if c.toNat < 0x20 || (ascii && 0x7e < c.toNat) then escapeCode c.toNat
  else [c]

/-- A string between quotes. -/
def stringText (ascii : Bool) (s : String) : List Char :=
  '"' :: s.toList.flatMap (escapeChar ascii) ++ ['"']

/-! ## The compact form -/

mutual

/-- The value on one line of ASCII. -/
def compact : Json → List Char
  | null => "null".toList
  | bool true => "true".toList
  | bool false => "false".toList
  | int value => integerText value
  | decimal value => value.text
  | str value => stringText true value
  | arr [] => "[]".toList
  | arr (item :: rest) => '[' :: compact item ++ compactItems rest ++ [']']
  | obj [] => ['\x7b', '\x7d']
  | obj ((name, value) :: rest) =>
    '\x7b' :: stringText true name ++ ": ".toList ++ compact value ++ compactFields rest ++ ['\x7d']

/-- The items after the first. -/
def compactItems : List Json → List Char
  | [] => []
  | item :: rest => ", ".toList ++ compact item ++ compactItems rest

/-- The fields after the first. -/
def compactFields : List (String × Json) → List Char
  | [] => []
  | (name, value) :: rest =>
    ", ".toList ++ stringText true name ++ ": ".toList ++ compact value ++ compactFields rest

end

/-- The value on one line of ASCII. -/
def compactText (value : Json) : String := String.ofList (compact value)

/-! ## Sorted keys -/

/-- Fields in the order of their names by code points. -/
def sortFields (fields : List (String × Json)) : List (String × Json) :=
  fields.mergeSort fun a b => decide (a.1 ≤ b.1)

mutual

/-- The value with the fields of every object sorted by name. -/
def canonical : Json → Json
  | arr items => arr (canonicalItems items)
  | obj fields => obj (sortFields (canonicalFields fields))
  | value => value

/-- Every item with sorted fields. -/
def canonicalItems : List Json → List Json
  | [] => []
  | item :: rest => canonical item :: canonicalItems rest

/-- Every field's value with sorted fields. -/
def canonicalFields : List (String × Json) → List (String × Json)
  | [] => []
  | (name, value) :: rest => (name, canonical value) :: canonicalFields rest

end

/-! ## The indented form -/

/-- A line break and the indentation of a depth. -/
def newline (depth : Nat) : List Char := '\n' :: List.replicate (2 * depth) ' '

mutual

/-- The value with one item or field a line, two spaces deeper than what holds it. -/
def indented (depth : Nat) : Json → List Char
  | null => "null".toList
  | bool true => "true".toList
  | bool false => "false".toList
  | int value => integerText value
  | decimal value => value.text
  | str value => stringText false value
  | arr [] => "[]".toList
  | arr (item :: rest) =>
    '[' :: newline (depth + 1) ++ indented (depth + 1) item ++ indentedItems (depth + 1) rest
      ++ newline depth ++ [']']
  | obj [] => ['\x7b', '\x7d']
  | obj ((name, value) :: rest) =>
    '\x7b' :: newline (depth + 1) ++ stringText false name ++ ": ".toList ++ indented (depth + 1) value
      ++ indentedFields (depth + 1) rest ++ newline depth ++ ['\x7d']

/-- The items after the first. -/
def indentedItems (depth : Nat) : List Json → List Char
  | [] => []
  | item :: rest => ',' :: newline depth ++ indented depth item ++ indentedItems depth rest

/-- The fields after the first. -/
def indentedFields (depth : Nat) : List (String × Json) → List Char
  | [] => []
  | (name, value) :: rest =>
    ',' :: newline depth ++ stringText false name ++ ": ".toList ++ indented depth value
      ++ indentedFields depth rest

end

/-- The value as the text of a file. -/
def indentedText (value : Json) : String := String.ofList (indented 0 value)

end Json

end ComponentDocs

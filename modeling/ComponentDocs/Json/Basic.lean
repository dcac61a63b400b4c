import ComponentDocs.Fields
import ComponentDocs.Text.Quoted

/-!
# JSON values

JSON values whose objects keep the order of their fields, and the records that the library passes
around: objects with fields that callers may add to.

* `Decimal`, `Json`, `Record`; `Json.beq`: equal values;
* `Json.isEmptyValue`: the values that count as absent in an option; `Json.typeName`;
* `Record.filled?`, `Record.text?`, `Record.list`: fields that are there and not empty;
* `Json.display`: a value inside a line of text.
-/

namespace ComponentDocs

/-! ## Values -/

/-- The number `digits / 10 ^ places`, written with that many places. -/
structure Decimal where
  digits : Int
  places : Nat
deriving DecidableEq, Repr, Inhabited

/-- A JSON value. -/
inductive Json where
  | null
  | bool (value : Bool)
  | int (value : Int)
  | decimal (value : Decimal)
  | str (value : String)
  | arr (items : List Json)
  | obj (fields : List (String × Json))
deriving Repr, Inhabited

/-- The fields of an object. -/
abbrev Record := Fields Json

/-! ## Equal values -/

namespace Json

mutual

/-- The values are equal; fields count in their order. -/
def beq : Json → Json → Bool
  | null, null => true
  | bool a, bool b => a == b
  | int a, int b => a == b
  | decimal a, decimal b => a == b
  | str a, str b => a == b
  | arr items, arr others => beqItems items others
  | obj fields, obj others => beqFields fields others
  | _, _ => false

def beqItems : List Json → List Json → Bool
  | [], [] => true
  | item :: rest, other :: others => beq item other && beqItems rest others
  | _, _ => false

def beqFields : List (String × Json) → List (String × Json) → Bool
  | [], [] => true
  | (name, value) :: rest, (other, otherValue) :: others =>
    name == other && beq value otherValue && beqFields rest others
  | _, _ => false

end

instance : BEq Json := ⟨beq⟩

end Json

/-! ## Numbers as text -/

/-- The decimal digits of an integer after its sign. -/
def integerText : Int → List Char
  | .ofNat n => Nat.toDigits 10 n
  | .negSucc n => '-' :: Nat.toDigits 10 (n + 1)

/-- The digits with at least `width` of them. -/
def padDigits (width : Nat) (cs : List Char) : List Char := List.replicate (width - cs.length) '0' ++ cs

/-- The sign, the integer part, a point and the places. -/
def Decimal.text (d : Decimal) : List Char :=
  let digits := padDigits (d.places + 1) (Nat.toDigits 10 d.digits.natAbs)
  let split := digits.length - d.places
  (if d.digits < 0 then ['-'] else []) ++ digits.take split ++ ['.'] ++ digits.drop split

/-- The integer part. -/
def Decimal.truncate (d : Decimal) : Int := d.digits.tdiv (Int.pow 10 d.places)

/-! ## Reading values -/

namespace Json

/-- Null, false, zero, and the empty string, list and object: an option with such a value is off. -/
def isEmptyValue : Json → Bool
  | null => true
  | bool value => !value
  | int value => value == 0
  | decimal value => value.digits == 0
  | str value => value == ""
  | arr items => items.isEmpty
  | obj fields => fields.isEmpty

/-- The string, if the value is one. -/
def str? : Json → Option String
  | str value => some value
  | _ => none

/-- The name of the type of a value. -/
def typeName : Json → String
  | null => "NoneType"
  | bool _ => "bool"
  | int _ => "int"
  | decimal _ => "float"
  | str _ => "str"
  | arr _ => "list"
  | obj _ => "dict"

/-- The items, none if the value is no list. -/
def items : Json → List Json
  | arr items => items
  | _ => []

/-- The fields, none if the value is no object. -/
def fields : Json → Record
  | obj fields => fields
  | _ => []

/-- The string or null. -/
def ofText? : Option String → Json
  | some text => str text
  | none => null

end Json

namespace Record

/-- The value of a field that is there and not empty. -/
def filled? (record : Record) (key : String) : Option Json :=
  (Fields.get? record key).filter (!·.isEmptyValue)

/-- The string of a field that is there and not empty. -/
def text? (record : Record) (key : String) : Option String := (filled? record key).bind Json.str?

/-- The items of a list, none if the field is absent. -/
def list (record : Record) (key : String) : List Json := ((Fields.get? record key).map Json.items).getD []

/-- The fields of an object, none if the field is absent. -/
def object (record : Record) (key : String) : Record :=
  ((Fields.get? record key).map Json.fields).getD []

/-- The value of a field, null if it is absent. -/
def get (record : Record) (key : String) : Json := (Fields.get? record key).getD .null

end Record

/-! ## Values inside a line of text -/

namespace Json

mutual

/-- A value inside a list or an object that is shown in a line of text. -/
def literal : Json → List Char
  | null => "None".toList
  | bool true => "True".toList
  | bool false => "False".toList
  | int value => integerText value
  | decimal value => value.text
  | str value => (Text.quote value).toList
  | arr items => '[' :: literals items ++ [']']
  | obj fields => '\x7b' :: literalFields fields ++ ['\x7d']

/-- Values with commas between them. -/
def literals : List Json → List Char
  | [] => []
  | item :: rest => literal item ++ literalsTail rest

/-- Values with a comma before each. -/
def literalsTail : List Json → List Char
  | [] => []
  | item :: rest => ", ".toList ++ literal item ++ literalsTail rest

/-- Fields with commas between them. -/
def literalFields : List (String × Json) → List Char
  | [] => []
  | (name, value) :: rest =>
    (Text.quote name).toList ++ ": ".toList ++ literal value ++ literalFieldsTail rest

/-- Fields with a comma before each. -/
def literalFieldsTail : List (String × Json) → List Char
  | [] => []
  | (name, value) :: rest =>
    ", ".toList ++ (Text.quote name).toList ++ ": ".toList ++ literal value ++ literalFieldsTail rest

end

/-- A value inside a line of text: a string stands for itself. -/
def display : Json → String
  | str value => value
  | value => String.ofList (literal value)

end Json

end ComponentDocs

import ComponentDocs.Component.Definition

/-!
# Members of object literals

The entries of an object literal, with the entries of other literals of the same source that are spread
into it in their place.

* `Member`, `SourceFile.members`;
* `keyName?`: the name of a keyed value;
* `entryMembers`, `SourceFile.spreadMembers`: what one entry stands for, and the argument of a spread.
-/

namespace ComponentDocs

/-- An entry of an object literal: a keyed value, a name that is key and value at once, or a spread of
something that is no object literal of the source. -/
inductive Member where
  | keyed (pair : Cursor)
  | shorthand (name : Cursor)
  | spread (argument : Cursor)

/-- The name of a keyed value; a computed key has none. -/
def keyName? (src : SourceFile) (pair : Cursor) : Option String :=
  ((pair.node.child? "key").filter (·.kind != "computed_property_name")).map fun key =>
    Text.unquote (src.text key)

/-- What an entry of an object literal stands for; `spread` says it of the argument of a spread. -/
def entryMembers (spread : Cursor → List Member) (entry : Cursor) : List Member :=
  if entry.kind = "pair" then [.keyed entry]
  else if entry.kind = "shorthand_property_identifier" then [.shorthand entry]
  else if entry.kind = "spread_element" then (entry.parts.head?.map spread).getD []
  else []

namespace SourceFile

variable (src : SourceFile)

/-- What the argument of a spread stands for; object literals are entered up to some depth. -/
def spreadMembers : Nat → Cursor → List Member
  | 0, argument => [.spread argument]
  | depth + 1, argument =>
    let value := src.resolve argument
    if value.kind = "object" then value.namedChildren.flatMap (entryMembers (spreadMembers depth))
    else [.spread argument]

/-- The entries of an object literal; literals that are spread are entered up to some depth. -/
def membersWithin (depth : Nat) (object : Cursor) : List Member :=
  object.namedChildren.flatMap (entryMembers (src.spreadMembers depth))

/-- How many literals deep spreads are entered. -/
def spreadDepth : Nat := 5

/-- The entries of an object literal. -/
def members (object : Cursor) : List Member := src.membersWithin spreadDepth object

end SourceFile

end ComponentDocs

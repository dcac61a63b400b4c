/-!
# Fields

Named values in the order in which the names first came. Writing a name that is there keeps its
place.

* `Fields.get?`, `Fields.has`: the value under a name;
* `Fields.set`: write in place or at the end, `Fields.setNew`: write only a name that is not there;
* `Fields.merge`: write all fields of a second list, `Fields.modify`: change one value;
* `Fields.ofList`: of a list with repeated names, each name at its first place with its last value.
-/

namespace ComponentDocs

/-- Named values in order. -/
abbrev Fields (α : Type) := List (String × α)

namespace Fields

variable {α : Type}

/-- The value under a name. -/
def get? : Fields α → String → Option α
  | [], _ => none
  | (name, value) :: rest, key => if name = key then some value else get? rest key

/-- The name is there. -/
def has (fields : Fields α) (key : String) : Bool := (get? fields key).isSome

/-- The names in order. -/
def names (fields : Fields α) : List String := fields.map (·.1)

/-- Writes the value in place if the name is there, at the end otherwise. -/
def set : Fields α → String → α → Fields α
  | [], key, value => [(key, value)]
  | (name, old) :: rest, key, value =>
    if name = key then (key, value) :: rest else (name, old) :: set rest key value

/-- Writes the value at the end unless the name is there. -/
def setNew (fields : Fields α) (key : String) (value : α) : Fields α :=
  if has fields key then fields else fields ++ [(key, value)]

/-- The value under the name, or `default`, changed by `f` and written back. -/
def modify (fields : Fields α) (key : String) (default : α) (f : α → α) : Fields α :=
  set fields key (f ((get? fields key).getD default))

/-- Writes the fields of `more` one after the other. -/
def merge (fields more : Fields α) : Fields α :=
  more.foldl (fun result field => set result field.1 field.2) fields

/-- The fields without one name. -/
def erase (fields : Fields α) (key : String) : Fields α := fields.filter (·.1 ≠ key)

/-- Each name at its first place with its last value. -/
def ofList (entries : List (String × α)) : Fields α := merge [] entries

end Fields

end ComponentDocs

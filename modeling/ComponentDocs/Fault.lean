import ComponentDocs.Json.Reader

/-!
# Faults

Everything that can go wrong, by cause. A file that cannot be documented is *rejected*; the other
faults are errors of records, values, options and files.

* `Position`: a place in a source text;
* `Rejection`: why a file cannot be documented, where, and the lines around the place;
* `ValueProblem`: why a value cannot be used where it stands;
* `Fault`, `Fault.message`: the causes and their words.
-/

namespace ComponentDocs

/-- A line and a column, both counted from one. -/
structure Position where
  line : Int
  column : Int
deriving DecidableEq, Repr

/-! ## Rejected files -/

/-- Why a file cannot be documented. -/
inductive RejectionKind where
  | unreadable
  | missingDefinition
  | multipleDefinitions
deriving DecidableEq, Repr

/-- A rejected file: the reason, its words, the place if there is one, and the lines around it once
they are known. -/
structure Rejection where
  kind : RejectionKind
  message : String
  position : Option Position := none
  excerpt : Option String := none
deriving DecidableEq, Repr

/-- No component was found. -/
def Rejection.missingDefinition : Rejection :=
  { kind := .missingDefinition, message := "No suitable component definition found." }

/-- More than one component is exported where one was asked for. -/
def Rejection.multipleDefinitions : Rejection :=
  { kind := .multipleDefinitions, message := "Multiple exported component definitions found." }

/-! ## Values -/

/-- Why a value cannot be used where it stands. The types are those of `Json.typeName`. -/
inductive ValueProblem where
  | noOperation (type operation : String)
  | notText (type : String)
  | notAssignable (type : String)
  | badIndex
  | notIterable (type : String)
  | notPair (index : Nat)
  | badPair (index length : Nat)
  | unhashable (type : String)
deriving DecidableEq, Repr

/-- The problem in words. -/
def ValueProblem.message : ValueProblem → String
  | noOperation type operation => Text.quote type ++ " object has no attribute " ++ Text.quote operation
  | notText type => "expected string or bytes-like object, got " ++ Text.quote type
  | notAssignable type => Text.quote type ++ " object does not support item assignment"
  | badIndex => "list indices must be integers or slices, not str"
  | notIterable type => Text.quote type ++ " object is not iterable"
  | notPair index =>
    "cannot convert dictionary update sequence element #" ++ toString index ++ " to a sequence"
  | badPair index length =>
    "dictionary update sequence element #" ++ toString index ++ " has length " ++ toString length
      ++ "; 2 is required"
  | unhashable type => "unhashable type: " ++ Text.quote type

/-! ## Faults -/

/-- Why a file operation fails. -/
inductive FileProblem where
  | missing
  | alreadyThere
  | notFolder
  | isFolder
deriving DecidableEq, Repr

/-- The number and the words of a file problem. -/
def FileProblem.message : FileProblem → String
  | missing => "[Errno 2] No such file or directory"
  | alreadyThere => "[Errno 17] File exists"
  | notFolder => "[Errno 20] Not a directory"
  | isFolder => "[Errno 21] Is a directory"

/-- A fault. -/
inductive Fault where
  | rejected (rejection : Rejection)
  | missingKey (key : String)
  | notRecord
  | unknownLanguage (name : String)
  | unknownGrammar (name : String)
  | badInteger (text : String)
  | badJson (failure : Json.Failure)
  | badPattern (line : String)
  | circularPropType
  | value (problem : ValueProblem)
  | file (problem : FileProblem) (path : String)
deriving DecidableEq, Repr

/-- The fault in words. -/
def Fault.message : Fault → String
  | rejected rejection => rejection.message
  | missingKey key => Text.quote key
  | notRecord => "not a record"
  | unknownLanguage name => "No extractor for language: " ++ name
  | unknownGrammar name => "Language not found: " ++ name
  | badInteger text => "invalid literal for int() with base 10: " ++ Text.quote text
  | badJson failure => failure.message
  | badPattern line => "Invalid git pattern: " ++ Text.quote line
  | circularPropType => "a prop type refers to itself"
  | value problem => problem.message
  | file problem path => problem.message ++ ": " ++ Text.quote path

namespace Record

/-- The value of a field that has to be there. -/
def require (record : Record) (key : String) : Except Fault Json :=
  match Fields.get? record key with
  | some value => .ok value
  | none => .error (.missingKey key)

/-- The string of a field that has to be there. -/
def requireText (record : Record) (key : String) : Except Fault String :=
  (require record key).map Json.display

end Record

end ComponentDocs

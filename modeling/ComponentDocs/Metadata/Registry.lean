import ComponentDocs.Fault
import ComponentDocs.Text.Case

/-!
# Registered languages

The languages that an extractor may be asked for, with the parser options that each brings.

* `registeredParsers`;
* `registeredOptions`: the options of a caller with those of a language below them.
-/

namespace ComponentDocs

/-- The languages with their parser options. -/
def registeredParsers : Fields Record :=
  [("javascript", []), ("typescript", []), ("flow", [("flow", .bool true)])]

/-- The options of a caller; what they say about parsing is written over what the language says. The
name of a language may be written in any case. -/
def registeredOptions (language : String) (options : Record) : Except Fault Record :=
  match Fields.get? registeredParsers (String.ofList (Text.lower language.toList)) with
  | none => .error (.unknownLanguage language)
  | some parser =>
    .ok (Fields.set options "parser_options" (.obj (Fields.merge parser (Record.object options "parser_options"))))

end ComponentDocs

import ComponentDocs.Text.Blank
import ComponentDocs.Text.Lines

/-!
# Comments

The documentation comments of a source, and their text.

* `isDocComment`: a comment starts with `/**`;
* `docText`: the text of a comment without the comment signs and the stars at the start of lines.
-/

namespace ComponentDocs

open Text

/-- The comment opens like a documentation comment. -/
def isDocComment (comment : List Char) : Bool := ['/', '*', '*'].isPrefixOf (trimStart comment)

/-- The text without a beginning, if it has it. -/
def withoutStart (start cs : List Char) : List Char := if start.isPrefixOf cs then cs.drop start.length else cs

/-- The text without an ending, if it has it. -/
def withoutEnd (ending cs : List Char) : List Char :=
  if ending.isSuffixOf cs then cs.take (cs.length - ending.length) else cs

/-- A line without the blanks and the star at its start and one blank after the star. -/
def withoutStar (line : List Char) : List Char :=
  match trimStart line with
  | '*' :: c :: rest => if isBlank c then rest else c :: rest
  | ['*'] => []
  | _ => line

/-- The text of a documentation comment. -/
def docText (comment : List Char) : List Char :=
  let body := withoutEnd ['*', '/'] (withoutStart ['/', '*', '*'] (trim comment))
  trim (joinLines ((splitAt '\n' body).map withoutStar))

/-- The text of a documentation comment. -/
def docString (comment : String) : String := String.ofList (docText comment.toList)

end ComponentDocs

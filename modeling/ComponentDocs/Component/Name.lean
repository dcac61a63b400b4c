import ComponentDocs.Path
import ComponentDocs.Text.Case
import ComponentDocs.Text.Word

/-!
# Names from files

The name of a component that has none of its own, made of the file it lives in.

* `joinWords`: dashes and underscores between words are dropped and the next letter is capital;
* `inferName`: the name for a file; a file called `index` takes the name of its folder.
-/

namespace ComponentDocs

open Text

/-- A character between words. -/
def isWordBreak (c : Char) : Bool := c == '-' || c == '_'

/-- What stays of word breaks that no word follows, last first: if an underscore has another break
before it, everything up to it becomes that underscore. -/
def looseBreaks (breaks : List Char) : List Char :=
  let dashes := breaks.takeWhile (· ≠ '_')
  match breaks.drop dashes.length with
  | '_' :: _ :: _ => '_' :: dashes.reverse
  | _ => breaks.reverse

/-- The words after the word breaks `breaks`, last first, joined. -/
def joinWordsFrom (breaks : List Char) : List Char → List Char
  | [] => looseBreaks breaks
  | c :: rest =>
    if isWordBreak c then joinWordsFrom (c :: breaks) rest
    else if breaks.isEmpty then c :: joinWordsFrom [] rest
    else if isWord c then upperChar c ++ joinWordsFrom [] rest
    else looseBreaks breaks ++ c :: joinWordsFrom [] rest

/-- The words of a name joined, each but the first with a capital. -/
def joinWords (name : List Char) : List Char := joinWordsFrom [] name

/-- The name of a file without its extension, or of its folder if the file is called `index`. -/
def fileStem (path : String) : String :=
  let stem := (Path.splitExtension (Path.baseName path)).1
  let parent := Path.baseName (Path.folder path)
  if stem = "index" ∧ parent ≠ "" then parent else stem

/-- The name for an anonymous component of a file. -/
def inferName (path : String) : String := String.ofList (capitalize (joinWords (fileStem path).toList))

end ComponentDocs

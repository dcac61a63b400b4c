import ComponentDocs.Fault
import ComponentDocs.Ignore.Wildcard
import ComponentDocs.Text.Blank

/-!
# Ignore rules

The lines of a file that says which paths to leave out. Of all rules that fit a path the last decides.

* `PathPattern`, `PathPattern.fits`, `PathPattern.read?`;
* `IgnoreRule`, `IgnoreRule.read`: the rule of a line, if it is one;
* `isIgnored`: what the rules say about a path.
-/

namespace ComponentDocs

/-! ## Patterns -/

/-- Which paths a rule is about. -/
inductive PathPattern where
  | everything
  /-- All paths in folders. -/
  | nested
  /-- The paths with a fitting beginning. -/
  | beginning (wildcards : List Wildcard)
deriving DecidableEq, Repr

namespace PathPattern

def fits : PathPattern → List Char → Bool
  | everything, _ => true
  | nested, path => path.contains '/'
  | beginning wildcards, path => Wildcard.fits wildcards path

/-! ## Segments -/

/-- The segment that stands for any folders. -/
def anyDepth : List Char := ['*', '*']

/-- The segment that stands for any name. -/
def anyName : List Char := ['*']

/-- The segments from the top: a slash at the start is dropped, and a single name may be anywhere. -/
def fromTop : List (List Char) → List (List Char)
  | [] :: rest => rest
  | [name] => [anyDepth, name]
  | [name, []] => [anyDepth, name, []]
  | segments => segments

/-- The segments in which an empty one at the end stands for everything below. -/
def openEnd : List (List Char) → List (List Char)
  | [] => []
  | [last] => [if last = [] then anyDepth else last]
  | segment :: rest => segment :: openEnd rest

/-- The segments without repetitions of the one for any folders. -/
def collapse : List (List Char) → List (List Char)
  | [] => []
  | segment :: rest =>
    if segment = anyDepth ∧ rest.head? = some anyDepth then collapse rest else segment :: collapse rest

/-- The wildcards of a name after a slash or after folders. -/
def nameWildcards? (slash : Bool) (segment : List Char) : Option (List Wildcard) := do
  let name ← if segment = anyName then some [.wholeName] else Wildcard.readName? segment
  pure (if slash then .exactly '/' :: name else name)

/-- The wildcards of segments; a name at the end has to be a whole one. -/
def wildcards? (slash : Bool) : List (List Char) → Option (List Wildcard)
  | [] => some []
  | [last] =>
    if last = anyDepth then some [.exactly '/'] else (nameWildcards? slash last).map (· ++ [.nameEnd])
  | segment :: rest => do
    if segment = anyDepth then pure (.innerFolders :: (← wildcards? true rest))
    else pure ((← nameWildcards? slash segment) ++ (← wildcards? true rest))

/-- The pattern of segments from the top, if they are well written; `folders` says that only folders
are meant. -/
def ofSegments? (folders : Bool) (segments : List (List Char)) : Option PathPattern :=
  if segments = [] then none
  else if segments = [anyDepth] ∨ segments = [anyDepth, anyName] then
    some (if folders then nested else everything)
  else if segments = [anyDepth, anyName, anyDepth] then some nested
  else match segments with
    | segment :: rest =>
      if segment = anyDepth then (wildcards? false rest).map fun found => beginning (.anyFolders :: found)
      else (wildcards? false segments).map beginning
    | [] => none

/-- The pattern that a text writes, if it is well written. -/
def read? (text : List Char) : Option PathPattern :=
  let segments := Text.splitAt '/' text
  ofSegments? (segments.getLast? = some []) (collapse (openEnd (fromTop segments)))

end PathPattern

/-! ## Rules -/

/-- A rule that leaves paths out or takes them back. -/
structure IgnoreRule where
  ignores : Bool
  pattern : PathPattern
deriving DecidableEq, Repr

namespace IgnoreRule

/-- The line without blanks at its end; a blank after a backslash stays. -/
def trimLine (line : List Char) : List Char :=
  match line.reverse with
  | ' ' :: '\\' :: _ => line
  | _ => Text.trimEnd line

/-- The rule of a line. Empty lines, comments and a lone slash are no rules. -/
def read (line : List Char) : Except Fault (Option IgnoreRule) :=
  let rule (ignores : Bool) (text : List Char) : Except Fault (Option IgnoreRule) :=
    match PathPattern.read? text with
    | some pattern => .ok (some { ignores, pattern })
    | none => .error (.badPattern (String.ofList line))
  match trimLine line with
  | [] => .ok none
  | ['/'] => .ok none
  | '#' :: _ => .ok none
  | '!' :: text => rule false text
  | text => rule true text

/-- The rules of lines in order. -/
def readAll (lines : List (List Char)) : Except Fault (List IgnoreRule) :=
  (lines.mapM read).map (·.filterMap id)

end IgnoreRule

/-- The last rule that fits the path leaves it out. -/
def isIgnored (rules : List IgnoreRule) (path : List Char) : Bool :=
  ((rules.filter (·.pattern.fits path)).getLast?.map (·.ignores)).getD false

end ComponentDocs

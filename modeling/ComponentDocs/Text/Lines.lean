/-!
# Lines

Texts are cut into lines at every line break of Unicode, and joined with line feeds.

* `splitLines`: the lines of a text; a break at the very end starts no further line;
* `splitAt`: the pieces of a text between the occurrences of one character, at least one;
* `join`: pieces joined by a text;
* `withLineFeeds`: a text whose lines end with line feeds only.
-/

namespace ComponentDocs.Text

/-- The code points that end a line. -/
def lineBreakCodes : List Nat := [0xa, 0xb, 0xc, 0xd, 0x1c, 0x1d, 0x1e, 0x85, 0x2028, 0x2029]

/-- A character that ends a line. -/
def isLineBreak (c : Char) : Bool := lineBreakCodes.contains c.toNat

/-- The character in front of the first line. -/
def consLine (c : Char) : List (List Char) → List (List Char)
  | [] => [[c]]
  | line :: lines => (c :: line) :: lines

/-- The lines of a text. A carriage return and the line feed after it are one break. -/
def splitLines : List Char → List (List Char)
  | [] => []
  | '\r' :: '\n' :: rest => [] :: splitLines rest
  | c :: rest => if isLineBreak c then [] :: splitLines rest else consLine c (splitLines rest)

/-- The pieces of a text between the occurrences of `separator`. -/
def splitAt (separator : Char) : List Char → List (List Char)
  | [] => [[]]
  | c :: rest =>
    if c = separator then [] :: splitAt separator rest else consLine c (splitAt separator rest)

/-- The pieces with `separator` between them. -/
def join (separator : List Char) : List (List Char) → List Char
  | [] => []
  | [piece] => piece
  | piece :: rest => piece ++ separator ++ join separator rest

/-- The text with a line feed for every carriage return, with or without a line feed after it. -/
def withLineFeeds : List Char → List Char
  | [] => []
  | '\r' :: '\n' :: rest => '\n' :: withLineFeeds rest
  | c :: rest => (if c = '\r' then '\n' else c) :: withLineFeeds rest

/-- The lines joined by line feeds. -/
def joinLines (lines : List (List Char)) : List Char := join ['\n'] lines

end ComponentDocs.Text

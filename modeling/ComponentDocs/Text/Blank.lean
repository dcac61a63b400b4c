/-!
# Blank characters

The blank characters of Unicode and the trimming of texts.

* `isBlank`: the characters that count as blank, `isBlankLine`: all characters do;
* `trimStart`, `trimEnd`, `trim`: a text without the blanks at its ends.
-/

namespace ComponentDocs.Text

/-- The code points of blank characters: the ASCII controls that separate, the next-line control and
the spaces and separators of Unicode. -/
def blankCodes : List Nat :=
  [0x9, 0xa, 0xb, 0xc, 0xd, 0x1c, 0x1d, 0x1e, 0x1f, 0x20, 0x85, 0xa0, 0x1680, 0x2000, 0x2001, 0x2002,
   0x2003, 0x2004, 0x2005, 0x2006, 0x2007, 0x2008, 0x2009, 0x200a, 0x2028, 0x2029, 0x202f, 0x205f,
   0x3000]

/-- A blank character. -/
def isBlank (c : Char) : Bool := blankCodes.contains c.toNat

/-- Nothing but blanks. -/
def isBlankLine (cs : List Char) : Bool := cs.all isBlank

/-- The text without the blanks at its start. -/
def trimStart (cs : List Char) : List Char := cs.dropWhile isBlank

/-- The text without the blanks at its end. -/
def trimEnd (cs : List Char) : List Char := (cs.reverse.dropWhile isBlank).reverse

/-- The text without the blanks at its ends. -/
def trim (cs : List Char) : List Char := trimEnd (trimStart cs)

/-- The string without the blanks at its ends. -/
def trimString (s : String) : String := String.ofList (trim s.toList)

end ComponentDocs.Text

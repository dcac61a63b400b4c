/-!
# Ranges of characters

A class of characters beyond ASCII is a list of inclusive ranges of code points.

* `Ranges.contains`: membership of a code point.
-/

namespace ComponentDocs.Text

/-- Inclusive ranges of code points. -/
abbrev Ranges := List (Nat × Nat)

/-- One of the ranges holds the code point. -/
def Ranges.contains (ranges : Ranges) (code : Nat) : Bool :=
  ranges.any fun range => range.1 ≤ code && code ≤ range.2

end ComponentDocs.Text

/-!
# Lines

A text as the list of its lines. A line ends at a line feed, and a carriage return in front of the
line feed belongs to the end.
-/

set_option autoImplicit false

namespace ObjectLayout.Text

/-- The line that was taken character by character, the last first, up to a line feed. -/
def closeLine : List Char → String
  | '\r' :: line => String.ofList line.reverse
  | line => String.ofList line.reverse

/-- The lines of a text, where the characters of the first line that stand in front of the text are
given from the last to the first. What follows the last line feed is a line, too, unless it is
empty. -/
def linesAfter : List Char → List Char → List String
  | [], [] => []
  | line, [] => [String.ofList line.reverse]
  | line, '\n' :: rest => closeLine line :: linesAfter [] rest
  | line, c :: rest => linesAfter (c :: line) rest

/-- The lines of a text. -/
def lines (text : String) : List String := linesAfter [] text.toList

end ObjectLayout.Text

/-!
# Lines of a text

A line feed ends a line, and takes one carriage return before it along. A
carriage return elsewhere is an ordinary character. The text after the last
line feed is a line unless it is empty.
-/

namespace VisualNovel.Text

/-- Drops the carriage return at the head of a line held last character first. -/
def dropReturn : List Char → List Char
  | '\r' :: line => line
  | line => line

/-- `line` holds, last character first, what was read of the line under way. -/
def linesFrom (line : List Char) : List Char → List (List Char)
  | [] => if line.isEmpty then [] else [line.reverse]
  | c :: cs =>
    if c = '\n' then (dropReturn line).reverse :: linesFrom [] cs
    else linesFrom (c :: line) cs

def lines (s : String) : List String :=
  (linesFrom [] s.toList).map String.ofList

end VisualNovel.Text

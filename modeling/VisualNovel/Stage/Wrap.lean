import VisualNovel.Text.Blank

/-!
# Wrapping text into lines

Words are what stands between spaces; no other blank separates them. A first
word that ends in a colon names the speaker and has the first line to itself.
The rest is filled in greedily.
-/

namespace VisualNovel.Wrap

/-- Fills `line` with words as long as they fit, and begins a new line with the
first that does not. -/
def fill (columns : Nat) (line : List Char) : List (List Char) → List (List Char)
  | [] => [line]
  | word :: words =>
    if line.length + 1 + word.length ≤ columns then
      fill columns (line ++ ' ' :: word) words
    else line :: fill columns word words

def wrap (columns : Nat) : List (List Char) → List (List Char)
  | [] => []
  | word :: words => fill columns word words

def isSpeaker (word : List Char) : Bool :=
  word.getLast? = some ':'

def layout (columns : Nat) : List (List Char) → List (List Char)
  | [] => []
  | first :: rest =>
    if isSpeaker first then first :: wrap columns rest else wrap columns (first :: rest)

/-- The lines of a text, none of two words or more longer than `columns`. -/
def lines (text : String) (columns : Nat) : List String :=
  (layout columns (Text.pieces (· = ' ') text.toList)).map String.ofList

end VisualNovel.Wrap

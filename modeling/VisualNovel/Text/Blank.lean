/-!
# Blank characters, words and trimming

A script is cut into words at blanks, and its lines lose the blanks around
them. Blank means the Unicode property `White_Space`, so the ideographic space
separates words and the zero-width space does not.
-/

namespace VisualNovel.Text

def isBlank (c : Char) : Bool :=
  let n := c.toNat
  (9 ≤ n && n ≤ 13) || n == 0x20 || n == 0x85 || n == 0xA0 || n == 0x1680 ||
    (0x2000 ≤ n && n ≤ 0x200A) || n == 0x2028 || n == 0x2029 || n == 0x202F ||
    n == 0x205F || n == 0x3000

-- ---------------------------------------------------------------------------
-- Pieces between separators
-- ---------------------------------------------------------------------------

/-- The pieces of `cs` between separators, empty ones left out; `piece` holds,
last character first, what was read of the piece under way. -/
def piecesFrom (sep : Char → Bool) (piece : List Char) : List Char → List (List Char)
  | [] => if piece.isEmpty then [] else [piece.reverse]
  | c :: cs =>
    if sep c then
      if piece.isEmpty then piecesFrom sep [] cs else piece.reverse :: piecesFrom sep [] cs
    else piecesFrom sep (c :: piece) cs

def pieces (sep : Char → Bool) (cs : List Char) : List (List Char) :=
  piecesFrom sep [] cs

def words (s : String) : List String :=
  (pieces isBlank s.toList).map String.ofList

-- ---------------------------------------------------------------------------
-- Trimming
-- ---------------------------------------------------------------------------

def trimList (cs : List Char) : List Char :=
  ((cs.dropWhile isBlank).reverse.dropWhile isBlank).reverse

def trim (s : String) : String :=
  String.ofList (trimList s.toList)

end VisualNovel.Text

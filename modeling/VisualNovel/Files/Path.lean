/-!
# Paths

Paths are texts, and keep the spelling they were given.
-/

namespace VisualNovel.Path

/-- An absolute right side replaces the left; otherwise one slash stands between
the two, unless the left is empty or ends with one. -/
def join (root path : String) : String :=
  match path.toList with
  | '/' :: _ => path
  | _ =>
    match root.toList.getLast? with
    | none | some '/' => root ++ path
    | some _ => root ++ "/" ++ path

def segmentsFrom (segment : List Char) : List Char → List String
  | [] => [String.ofList segment.reverse]
  | c :: cs =>
    if c = '/' then String.ofList segment.reverse :: segmentsFrom [] cs
    else segmentsFrom (c :: segment) cs

/-- What stands between the slashes, empty segments included. -/
def segments (path : String) : List String :=
  segmentsFrom [] path.toList

def isAbsolute (path : String) : Bool :=
  path.toList.head? = some '/'

/-- What follows the last dot of a file's name, unless the dot begins the name. -/
def extension? (name : String) : Option String :=
  let reversed := name.toList.reverse
  match reversed.dropWhile (· ≠ '.') with
  | '.' :: _ :: _ => some (String.ofList (reversed.takeWhile (· ≠ '.')).reverse)
  | _ => none

/-- The order of paths: segment by segment. -/
def le : List String → List String → Bool
  | [], _ => true
  | _ :: _, [] => false
  | a :: as, b :: bs => if a = b then le as bs else decide (a < b)

end VisualNovel.Path

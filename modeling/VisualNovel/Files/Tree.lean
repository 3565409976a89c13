import VisualNovel.Files.Failure
import VisualNovel.Files.Path

/-!
# File trees

What a story can read, as a value. A place is the list of segments that leads to
it from the top; relative paths begin at the working directory.
-/

namespace VisualNovel

/-- Files, with their bytes, and directories. The directories above an entry are
there without being listed. -/
structure Files where
  entries : List (List String × Option ByteArray) := []
  workingDirectory : List String := []
  deriving Inhabited

inductive Node where
  | directory
  | file (bytes : ByteArray)

namespace Files

/-- A tree of nothing but the given entries under a working directory. -/
def under (workingDirectory : List String) (entries : List (List String × Option ByteArray)) :
    Files :=
  { entries := (workingDirectory, none) ::
      entries.map fun (path, content) => (workingDirectory ++ path, content)
    workingDirectory }

def node? (files : Files) (place : List String) : Option Node :=
  match files.entries.lookup place with
  | some (some bytes) => some (.file bytes)
  | some none => some .directory
  | none =>
    if place.isEmpty || files.entries.any fun (path, _) => place.isPrefixOf path then
      some .directory
    else none

-- ---------------------------------------------------------------------------
-- Following paths
-- ---------------------------------------------------------------------------

def child? (files : Files) (place : List String) (name : String) :
    Except ReadFailure (List String) :=
  if 255 < name.utf8ByteSize then .error .nameTooLong
  else if (files.node? (place ++ [name])).isSome then .ok (place ++ [name])
  else .error .notFound

/-- Only directories lead on, also to themselves and upwards. The top is its own
parent. -/
def follow (files : Files) (place : List String) :
    List String → Except ReadFailure (List String)
  | [] => .ok place
  | name :: names =>
    match files.node? place with
    | some .directory =>
      if name = "" ∨ name = "." then files.follow place names
      else if name = ".." then files.follow place.dropLast names
      else (files.child? place name).bind fun place => files.follow place names
    | _ => .error .notDirectory

def origin (files : Files) (path : String) : List String :=
  if Path.isAbsolute path then [] else files.workingDirectory

def locate (files : Files) (path : String) : Except ReadFailure (List String) :=
  if path.toList.contains '\x00' then .error .nulInName
  else if path = "" then .error .notFound
  else files.follow (files.origin path) (Path.segments path)

def at? (files : Files) (path : String) : Option Node :=
  match files.locate path with
  | .ok place => files.node? place
  | .error _ => none

def contains (files : Files) (path : String) : Bool :=
  (files.at? path).isSome

def isFile (files : Files) (path : String) : Bool :=
  match files.at? path with
  | some (.file _) => true
  | _ => false

def isDirectory (files : Files) (path : String) : Bool :=
  match files.at? path with
  | some .directory => true
  | _ => false

-- ---------------------------------------------------------------------------
-- Reading and writing
-- ---------------------------------------------------------------------------

def readText (files : Files) (path : String) : Except ReadFailure String :=
  match files.locate path with
  | .error failure => .error failure
  | .ok place =>
    match files.node? place with
    | some (.file bytes) =>
      match String.fromUTF8? bytes with
      | some text => .ok text
      | none => .error .notUtf8
    | some .directory => .error .isDirectory
    | none => .error .notFound

def put (files : Files) (place : List String) (bytes : ByteArray) : Files :=
  { files with
    entries := (place, some bytes) :: files.entries.filter fun (path, _) => path ≠ place }

/-- Writes a file, over the one that is there or into a directory that is. -/
def writeText (files : Files) (path text : String) : Except ReadFailure Files :=
  let segments := Path.segments path
  match files.locate path with
  | .ok place =>
    match files.node? place with
    | some (.file _) => .ok (files.put place text.toUTF8)
    | _ => .error .isDirectory
  | .error .notFound =>
    (files.follow (files.origin path) segments.dropLast).bind fun place =>
      match segments.getLast? with
      | none | some "" => .error .notFound
      | some name => .ok (files.put (place ++ [name]) text.toUTF8)
  | .error failure => .error failure

-- ---------------------------------------------------------------------------
-- Listing
-- ---------------------------------------------------------------------------

def insertSorted (path : List String) : List (List String) → List (List String)
  | [] => [path]
  | other :: rest =>
    if Path.le path other then path :: other :: rest else other :: insertSorted path rest

/-- The files below a place, in the order of paths, as segments from there. -/
def below (files : Files) (place : List String) : List (List String) :=
  (files.entries.filterMap fun (path, content) =>
    if content.isSome && place.isPrefixOf path && place.length < path.length then
      some (path.drop place.length)
    else none).foldr insertSorted []

/-- The files with an extension at any depth under a directory, spelled from the
directory's own path. -/
def withExtension (files : Files) (extension directory : String) : List String :=
  match files.locate directory with
  | .error _ => []
  | .ok place =>
    ((files.below place).filter fun path =>
        (path.getLast?.bind Path.extension?) = some extension).map
      (·.foldl Path.join directory)

end Files

end VisualNovel

import VisualNovel.CommandLine.Play
import VisualNovel.CommandLine.ScriptCheck

/-!
# The program

Takes a snapshot of the files a command line can reach, hands it to the command,
and prints what comes back. `script-check` as the first word checks scripts; all
other command lines play.
-/

namespace VisualNovel.Main

open CommandLine

/-- Absolute segments, with `.` and `..` taken away. -/
def settle (place : List String) : List String → List String
  | [] => place
  | name :: names =>
    if name = "" ∨ name = "." then settle place names
    else if name = ".." then settle place.dropLast names
    else settle (place ++ [name]) names

def placeOf (here : List String) (path : String) : List String :=
  settle (if Path.isAbsolute path then [] else here) (Path.segments path)

/-- Images are only looked for, so that bytes are read of scripts, of
configurations and of the places named. -/
def readsBytes (named : List (List String)) (place : List String) : Bool :=
  named.contains place ||
    (place.getLast?.bind Path.extension?).any fun extension => ["rgo", "json"].contains extension

/-- All that is at a place and below it, down to `depth` levels. -/
def walk (named : List (List String)) :
    Nat → List String → IO (List (List String × Option ByteArray))
  | 0, _ => return []
  | depth + 1, place => do
    let path := (← IO.currentDir) / ("/" ++ "/".intercalate place)
    if ← path.isDir then
      let inside ← try path.readDir catch _ => pure #[]
      let found ← inside.toList.mapM fun entry => walk named depth (place ++ [entry.fileName])
      return (place, none) :: found.flatten
    else if ← path.pathExists then
      let bytes ←
        if readsBytes named place then try IO.FS.readBinFile path catch _ => pure .empty
        else pure .empty
      return [(place, some bytes)]
    else return []

def snapshot (paths : List String) : IO Files := do
  let here := settle [] (Path.segments (← IO.currentDir).toString)
  let named := paths.map (placeOf here)
  let found ← (here :: named).mapM (walk named 32)
  return { entries := found.flatten, workingDirectory := here }

def usage : String :=
  "usage: [-c FILE] [--assets-root DIR] [-s SCRIPT] [--choices N,N,...] [--max-frames N]\n" ++
  "       [--skip-reveal] [--log-level LEVEL] [--check] [--version]\n" ++
  "       script-check [PATH] [--assets-root DIR]\n"

def finish : Exit → IO UInt32
  | .done code out err => do
    IO.print out
    IO.eprint err
    return code.toUInt32
  | .usage => do
    IO.eprint usage
    return 2
  | .help => do
    IO.print usage
    return 0

/-- The paths playing looks at; which they are depends on the configuration. -/
def playPaths (words : List String) : IO (List String) := do
  match PlayOptions.spec.parse words with
  | .arguments arguments =>
    let options := PlayOptions.ofArguments arguments
    let config := options.apply (Config.loadOrDefault (← snapshot [options.config]) options.config)
    return [options.config, config.assetsRoot, config.startScriptPath]
  | _ => return []

/-- The paths a check of scripts looks at. -/
def checkPaths (words : List String) : List String :=
  match ScriptCheck.spec.parse (words.drop 1) with
  | .arguments arguments => arguments.positionals ++ arguments.values "assets-root"
  | _ => []

end VisualNovel.Main

open VisualNovel VisualNovel.CommandLine in
def main (words : List String) : IO UInt32 := do
  match words with
  | "script-check" :: _ =>
    Main.finish (ScriptCheck.execute words (← Main.snapshot (Main.checkPaths words)))
  | _ => Main.finish (Play.execute words (← Main.snapshot (← Main.playPaths words)))

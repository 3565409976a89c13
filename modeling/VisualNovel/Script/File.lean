import VisualNovel.Error
import VisualNovel.Files.Tree
import VisualNovel.Script.Program

/-!
# Script files
-/

namespace VisualNovel

def Program.load (files : Files) (path : String) : Except LoadError Program :=
  match files.readText path with
  | .ok text => .ok (.parse text)
  | .error failure => .error (.unreadable path failure)

end VisualNovel

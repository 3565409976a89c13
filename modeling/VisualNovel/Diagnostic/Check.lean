import VisualNovel.Diagnostic.Analysis
import VisualNovel.Log
import VisualNovel.Script.File

/-!
# Checking a script against its assets

To what the analysis of a script finds, a check adds a warning for every image
the script refers to whose file is not there.
-/

namespace VisualNovel

def missingAssets (files : Files) (assetsRoot script : String) (program : Program) : Report :=
  (program.assetReferences.filter fun asset =>
      !files.isFile (Path.join assetsRoot asset.path)).map fun asset =>
    { severity := .warn
      script
      line := some asset.line
      message := s!"{asset.kind.label}素材不存在: {asset.path}" }

def Program.check (program : Program) (files : Files) (assetsRoot script : String) : Report :=
  program.analyze script ++ missingAssets files assetsRoot script program

/-- Checks a script file under its path as name. -/
def checkScript (files : Files) (path assetsRoot : String) : Except LoadError Report :=
  (Program.load files path).map (·.check files assetsRoot path)

/-- What is logged of a report: its errors and warnings, and how many they were. -/
def Report.log (report : Report) : List LogEvent :=
  (Report.atLeast report .warn).map .finding ++
    if 0 < Report.errors report ∨ 0 < Report.warnings report then
      [.checked (Report.errors report) (Report.warnings report)]
    else []

end VisualNovel

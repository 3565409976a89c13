import VisualNovel.CommandLine.Arguments
import VisualNovel.Diagnostic.Check

/-!
# Checking scripts from the command line

Checks one script, or all scripts under a directory, and prints what was found
to standard error. The exit code tells whether there were errors.
-/

namespace VisualNovel.CommandLine.ScriptCheck

def extension : String := "rgo"

def defaultDirectory : String := "resource/script"

def spec : Spec where
  options :=
    [ { long := "assets-root", kind := .value (· ≠ "") },
      { long := "help", short := some 'h', kind := .help } ]
  positionals := 1
  acceptsPositional := (· ≠ "")

/-- The scripts a path stands for, or why it stands for none. -/
def scripts (files : Files) : Option String → Except String (List String)
  | some path =>
    if files.isFile path then .ok [path]
    else if files.isDirectory path then .ok (files.withExtension extension path)
    else .error s!"路径不存在: {path}"
  | none =>
    if files.contains defaultDirectory then
      .ok (files.withExtension extension defaultDirectory)
    else .error (s!"默认脚本目录不存在: {defaultDirectory}\n" ++
      "请在 workspace 根目录运行，或指定脚本路径")

/-- What the check of several scripts came to. -/
structure Summary where
  scripts : Nat
  unreadable : List LoadError := []
  report : Report := []

def checkAll (files : Files) (assetsRoot : String) (paths : List String) : Summary :=
  paths.foldl (fun summary path =>
    match checkScript files path assetsRoot with
    | .ok report => { summary with report := summary.report ++ report }
    | .error error => { summary with unreadable := summary.unreadable ++ [error] })
    { scripts := paths.length }

namespace Summary

def errors (summary : Summary) : Nat :=
  summary.unreadable.length + Report.errors summary.report

def verdict (summary : Summary) : String :=
  let warnings := Report.warnings summary.report
  if 0 < summary.errors then s!"❌ {summary.errors} 个错误, {warnings} 个警告"
  else if 0 < warnings then s!"⚠️  0 个错误, {warnings} 个警告"
  else "✅ 检查通过，无错误"

def rule : String := String.ofList (List.replicate 53 '─')

def lines (summary : Summary) : List String :=
  [s!"==> 检查 {summary.scripts} 个脚本文件...", ""] ++
    summary.unreadable.map (fun error => s!"[ERROR] {error.message}") ++
    [rule, s!"检查完成: {summary.scripts} 个脚本", ""] ++
    summary.report.map (·.text) ++
    ["", summary.verdict]

end Summary

def unlines (lines : List String) : String :=
  String.join (lines.map (· ++ "\n"))

def failure (message : String) : String :=
  s!"xtask error: {message}"

def run (path : Option String) (assetsRoot : String) (files : Files) : Exit :=
  match scripts files path with
  | .error message => .done 1 "" (unlines [failure message])
  | .ok [] => .done 0 "" (unlines [s!"未找到脚本文件（.{extension}）"])
  | .ok paths =>
    let summary := checkAll files assetsRoot paths
    if 0 < summary.errors then
      .done 1 "" (unlines (summary.lines ++ [failure "脚本检查发现错误"]))
    else .done 0 "" (unlines summary.lines)

/-- The first word names the task; checking scripts is the only one. -/
def execute (words : List String) (files : Files) : Exit :=
  match words with
  | "script-check" :: words =>
    match spec.parse words with
    | .arguments arguments =>
      run arguments.positionals.head? ((arguments.value? "assets-root").getD ".") files
    | .help => .help
    | .version | .rejected => .usage
  | "--help" :: _ | "-h" :: _ => .help
  | _ => .usage

end VisualNovel.CommandLine.ScriptCheck

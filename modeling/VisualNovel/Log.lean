import VisualNovel.Diagnostic.Basic
import VisualNovel.Error

/-!
# The log

Warnings and errors met while a story plays or is checked. An event is a cause;
`message` and `fields` say how it is written down.
-/

namespace VisualNovel

inductive LogEvent where
  | malformedCommand (line : Nat) (error : ScriptError)
  | unknownCommand (name : String)
  | commandRefused (line : Nat) (error : DisplayError)
  | menuNotClosed (error : DisplayError)
  /-- A jump to an undefined label; the line is the number of lines executed. -/
  | jumpFailed (label : String) (line : Nat)
  | chainCut (steps line : Nat)
  | unknownTransition (name : String)
  | maskNotGiven
  | maskRefused (error : DisplayError)
  | frameLimit (frames : Nat)
  | finding (diagnostic : Diagnostic)
  | checked (errors warnings : Nat)
  deriving DecidableEq, Repr, Inhabited

namespace LogEvent

def severity : LogEvent → Severity
  | .chainCut .. => .error
  | .finding d => d.severity
  | _ => .warn

def message : LogEvent → String
  | .malformedCommand .. => "指令格式错误"
  | .unknownCommand _ => "未知指令，已忽略"
  | .commandRefused .. => "显示指令执行失败"
  | .menuNotClosed _ => "关闭选择支失败"
  | .jumpFailed .. => "跳转失败"
  | .chainCut .. => "选择后的连续执行超出上限，脚本可能存在死循环"
  | .unknownTransition _ => "未知过渡效果，直接切换"
  | .maskNotGiven => "遮罩过渡缺少遮罩参数，直接切换"
  | .maskRefused _ => "遮罩加载失败，直接切换"
  | .frameLimit _ => "达到帧数上限，脚本未执行完毕"
  | .finding d =>
    match d.severity with
    | .error => "诊断错误"
    | .warn => "诊断警告"
    | .info => "诊断信息"
  | .checked .. => "脚本检查完成"

def optionalLine : Option Nat → String
  | some line => s!"Some({line})"
  | none => "None"

/-- What is written behind the message, each value under its name. -/
def fields : LogEvent → List (String × String)
  | .malformedCommand line error => [("line", toString line), ("error", error.message)]
  | .unknownCommand name => [("command", name)]
  | .commandRefused line error => [("line", toString line), ("error", error.message)]
  | .menuNotClosed error => [("error", error.message)]
  | .jumpFailed label line =>
    [("error", (RuntimeError.labelNotFound label).message), ("line", toString line)]
  | .chainCut steps line => [("steps", toString steps), ("line", toString line)]
  | .unknownTransition name => [("name", name)]
  | .maskNotGiven => []
  | .maskRefused error => [("error", error.message)]
  | .frameLimit frames => [("max_frames", toString frames)]
  | .finding d =>
    [("script_id", d.script), ("line", optionalLine d.line), ("message", d.message)]
  | .checked errors warnings =>
    [("errors", toString errors), ("warnings", toString warnings)]

end LogEvent

end VisualNovel

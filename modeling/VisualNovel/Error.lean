import VisualNovel.Files.Failure
import VisualNovel.Script.Error

/-!
# Errors

Every error is a cause; its wording is its `message`.
-/

namespace VisualNovel

/-- A script that cannot be read, fatal when a story starts. -/
inductive LoadError where
  | unreadable (path : String) (failure : ReadFailure)
  deriving DecidableEq, Repr, Inhabited

inductive RuntimeError where
  | labelNotFound (label : String)
  | invalidChoiceIndex (index count : Nat)
  | stateMismatch (expected actual : String)
  | layerOutOfRange (index count : Nat)
  deriving DecidableEq, Repr, Inhabited

/-- Why a display refused a command; a refusal never stops a story. -/
inductive DisplayError where
  | asset (path reason : String)
  | runtime (error : RuntimeError)
  deriving DecidableEq, Repr, Inhabited

/-- Any of them. -/
inductive StoryError where
  | load (error : LoadError)
  | script (error : ScriptError)
  | runtime (error : RuntimeError)
  | display (error : DisplayError)
  deriving DecidableEq, Repr, Inhabited

def LoadError.message : LoadError → String
  | .unreadable path failure => s!"无法读取脚本文件 '{path}': {failure.message}"

/-- The message with its cause spelled out once more behind it. -/
def LoadError.chain : LoadError → String
  | .unreadable path failure =>
    s!"{(LoadError.unreadable path failure).message}: {failure.message}"

def RuntimeError.message : RuntimeError → String
  | .labelNotFound label => s!"标签 '{label}' 未找到"
  | .invalidChoiceIndex index count => s!"无效的选择索引 {index}，有效范围是 0..{count}"
  | .stateMismatch expected actual => s!"当前状态不允许此操作：期望 {expected}，实际 {actual}"
  | .layerOutOfRange index count => s!"图层索引 {index} 越界（共 {count} 层）"

def DisplayError.message : DisplayError → String
  | .asset path reason => s!"素材加载失败 '{path}': {reason}"
  | .runtime error => error.message

def StoryError.message : StoryError → String
  | .load error => s!"加载错误: {error.message}"
  | .script error => s!"语法错误: {error.message}"
  | .runtime error => s!"运行时错误: {error.message}"
  | .display error => s!"显示错误: {error.message}"

end VisualNovel

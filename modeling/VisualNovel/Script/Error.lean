/-!
# Faults in a command

Each fault is recovered where it is found: the command is still read, with the
faulty part left out or taken as zero.
-/

namespace VisualNovel

inductive ScriptError where
  | emptyCommand
  | missingArgument (command param : String)
  | invalidLayer (command value : String)
  | malformedChoice (group : Nat) (message : String)
  | invalidInteger (param value : String)
  | incompleteCondition (condition : String)
  | unknownConditionSubject (subject : String)
  | unknownOperator (operator : String)
  deriving DecidableEq, Repr, Inhabited

def ScriptError.message : ScriptError → String
  | .emptyCommand => "空指令"
  | .missingArgument command param => s!"指令 '{command}' 缺少参数 '{param}'"
  | .invalidLayer command value => s!"指令 '{command}' 的图层索引无效: '{value}'"
  | .malformedChoice group message => s!"选项格式错误（第 {group} 组）: {message}"
  | .invalidInteger param value => s!"参数 '{param}' 不是整数: '{value}'，按 0 处理"
  | .incompleteCondition condition => s!"条件表达式不完整: '{condition}'"
  | .unknownConditionSubject subject => s!"不支持的条件类型 '{subject}'"
  | .unknownOperator operator => s!"未知的比较运算符 '{operator}'，条件视为不成立"

end VisualNovel

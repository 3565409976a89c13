import VisualNovel.Text.Blank

/-!
# Script lines

A line is a command, a label or dialogue, decided by its first character alone.
-/

namespace VisualNovel

inductive LineForm where
  /-- What follows the `@`. -/
  | command (body : String)
  /-- What follows the `:`, trimmed. -/
  | label (name : String)
  | dialogue (text : String)
  deriving DecidableEq, Repr, Inhabited

namespace LineForm

def classify (line : String) : LineForm :=
  match line.toList with
  | '@' :: body => .command (String.ofList body)
  | ':' :: name => .label (String.ofList (Text.trimList name))
  | _ => .dialogue line

def labelName? : LineForm → Option String
  | .label name => some name
  | _ => none

def commandName? : LineForm → Option String
  | .command body => (Text.words body).head?
  | _ => none

end LineForm

end VisualNovel

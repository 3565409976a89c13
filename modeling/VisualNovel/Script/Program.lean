import VisualNovel.Script.Line
import VisualNovel.Text.Lines

/-!
# Programs

A program is the list of the script's lines that are neither blank nor a
comment, each trimmed and with its number in the text. Nothing is checked when
a text is read.
-/

namespace VisualNovel

structure ScriptLine where
  /-- The line's number in the text, from 1. -/
  number : Nat
  text : String
  deriving DecidableEq, Repr, Inhabited

def ScriptLine.form (line : ScriptLine) : LineForm :=
  LineForm.classify line.text

structure Program where
  lines : List ScriptLine := []
  deriving DecidableEq, Repr, Inhabited

namespace Program

def isComment (cs : List Char) : Bool :=
  ['-', '-'].isPrefixOf cs

/-- A line of the text as a line of the program, unless it is blank or a comment. -/
def keep? (number : Nat) (raw : String) : Option ScriptLine :=
  let cs := Text.trimList raw.toList
  if cs.isEmpty || isComment cs then none else some ⟨number, String.ofList cs⟩

def parse (text : String) : Program :=
  ⟨((Text.lines text).zipIdx 1).filterMap fun (raw, number) => keep? number raw⟩

def size (program : Program) : Nat :=
  program.lines.length

def line? (program : Program) (index : Nat) : Option String :=
  (program.lines[index]?).map (·.text)

def form? (program : Program) (index : Nat) : Option LineForm :=
  (program.lines[index]?).map (·.form)

def sourceLine? (program : Program) (index : Nat) : Option Nat :=
  (program.lines[index]?).map (·.number)

/-- The number to report for a line: past the end, its position counted from 1. -/
def lineNumber (program : Program) (index : Nat) : Nat :=
  (program.sourceLine? index).getD (index + 1)

/-- Where the label is first defined; blanks around the name do not count. -/
def findLabel (program : Program) (name : String) : Option Nat :=
  program.lines.findIdx? fun line => line.form.labelName? = some (Text.trim name)

def definedLabels (program : Program) : List String :=
  program.lines.filterMap (·.form.labelName?)

end Program

end VisualNovel

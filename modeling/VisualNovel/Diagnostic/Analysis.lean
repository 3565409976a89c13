import VisualNovel.Diagnostic.Basic
import VisualNovel.Script.Program
import VisualNovel.Script.Reading

/-!
# Checking a script

One pass over the lines finds undefined jump targets, conditional markers
without a partner, unknown commands, faults in commands and labels defined
twice. Blocks never closed are reported at the end, in the order of their
opening.
-/

namespace VisualNovel

namespace Analysis

/-- What the pass carries from line to line. -/
structure State where
  /-- The lines of the blocks still open, the innermost first. -/
  openBlocks : List Nat := []
  /-- The labels met so far, each with the line of its first definition. -/
  labels : List (String × Nat) := []

/-- A pass over one script. -/
structure Subject where
  script : String
  program : Program

def Subject.at (subject : Subject) (line : Nat) (severity : Severity) (message : String)
    (detail : Option String := none) : Diagnostic :=
  { severity, script := subject.script, line := some line, message, detail }

def undefinedTargets (subject : Subject) (line : Nat) (command : Command) : Report :=
  (command.targets.filter fun label => (subject.program.findLabel label).isNone).map fun label =>
    subject.at line .error s!"未定义的跳转目标: {label}"
      (some s!"jump 或 choice 引用了不存在的标签 '{label}'")

/-- How a command changes the blocks still open, and what is wrong with it there. -/
def checkMarker (subject : Subject) (line : Nat) (openBlocks : List Nat) :
    Command → List Nat × Report
  | .ifHolds _ => (line :: openBlocks, [])
  | .endIf =>
    match openBlocks with
    | [] => ([], [subject.at line .error "多余的 @endif：没有对应的 @if"])
    | _ :: outer => (outer, [])
  | .elseIf _ =>
    (openBlocks,
      if openBlocks.isEmpty then [subject.at line .error "@elseif 不在任何 @if 块中"] else [])
  | .otherwise =>
    (openBlocks,
      if openBlocks.isEmpty then [subject.at line .error "@else 不在任何 @if 块中"] else [])
  | .unknown name => (openBlocks, [subject.at line .warn s!"未知指令: {name}"])
  | _ => (openBlocks, [])

def checkLine (subject : Subject) (state : State) (line : ScriptLine) : State × Report :=
  match line.form with
  | .label name =>
    match state.labels.lookup name with
    | some first =>
      (state, [subject.at line.number .warn s!"重复的标签: {name}（首次定义于第 {first} 行）"])
    | none => ({ state with labels := (name, line.number) :: state.labels }, [])
  | .command body =>
    let reading := Command.read body
    let (openBlocks, report) := checkMarker subject line.number state.openBlocks reading.value
    ({ state with openBlocks },
      undefinedTargets subject line.number reading.value ++ report ++
        reading.errors.map fun e => subject.at line.number .warn e.message (some line.text))
  | .dialogue _ => (state, [])

def checkLines (subject : Subject) (state : State) : List ScriptLine → State × Report
  | [] => (state, [])
  | line :: lines =>
    let (state, report) := checkLine subject state line
    let (state, more) := checkLines subject state lines
    (state, report ++ more)

end Analysis

open Analysis in
def Program.analyze (program : Program) (script : String) : Report :=
  let subject : Subject := { script, program }
  let (state, report) := checkLines subject {} program.lines
  report ++ state.openBlocks.reverse.map fun line =>
    subject.at line .error "@if 缺少对应的 @endif"

-- ---------------------------------------------------------------------------
-- What a script refers to
-- ---------------------------------------------------------------------------

inductive AssetKind where
  | background | character | mask
  deriving DecidableEq, Repr

def AssetKind.label : AssetKind → String
  | .background => "背景"
  | .character => "立绘"
  | .mask => "遮罩"

structure AssetReference where
  kind : AssetKind
  path : String
  line : Nat
  deriving DecidableEq, Repr

namespace Program

/-- The commands of a program, each with its line number. -/
def commands (program : Program) : List (Nat × Command) :=
  program.lines.filterMap fun line =>
    match line.form with
    | .command body => some (line.number, (Command.read body).value)
    | _ => none

def jumpTargets (program : Program) : List (String × Nat) :=
  program.commands.flatMap fun (line, command) => command.targets.map (·, line)

end Program

/-- The mask a transition names first; `-` names none. -/
def Transition.mask? (transition : Transition) : Option String :=
  transition.args.head?.filter (· ≠ "-")

def Command.assets (line : Nat) : Command → List AssetReference
  | .background _ path transition =>
    ⟨.background, path, line⟩ ::
      ((transition.bind Transition.mask?).toList.map fun mask => ⟨.mask, mask, line⟩)
  | .character _ _ path => [⟨.character, path, line⟩]
  | _ => []

def Program.assetReferences (program : Program) : List AssetReference :=
  program.commands.flatMap fun (line, command) => command.assets line

end VisualNovel

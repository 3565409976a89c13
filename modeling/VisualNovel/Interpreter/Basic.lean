import VisualNovel.Choice.Offer
import VisualNovel.Interpreter.Execution
import VisualNovel.Log

/-!
# The interpreter

The state of a story being played, what can be given to it, and what it can ask
for.
-/

namespace VisualNovel

structure Options where
  affection : AffectionRange := {}
  branchScan : BranchScan := .nested
  /-- How many lines may follow a pick within one step. -/
  maxChainSteps : Nat := 10000
  deriving DecidableEq, Repr, Inhabited

inductive Input where
  | click
  | hover (index : Nat)
  | select (index : Nat)
  deriving DecidableEq, Repr, Inhabited

inductive InputOutcome where
  | resumed | revealCompleted | selectionRecorded | hovered | ignored
  deriving DecidableEq, Repr, Inhabited

def InputOutcome.name : InputOutcome → String
  | .resumed => "Resumed"
  | .revealCompleted => "RevealCompleted"
  | .selectionRecorded => "SelectionRecorded"
  | .hovered => "Hovered"
  | .ignored => "Ignored"

inductive Action where
  /-- Something to show, with the number of the line that asked for it. -/
  | display (line : Nat) (command : DisplayCommand)
  | closeMenu
  | wrote (character : String) (value : Int32)
  | log (event : LogEvent)
  deriving DecidableEq, Repr, Inhabited

structure Interpreter where
  program : Program := {}
  cursor : Cursor := {}
  suspend : Suspend := .running
  currentText : Option String := none
  affection : AffectionTable := {}
  offer : Offer := {}
  options : Options := {}
  deriving DecidableEq, Repr, Inhabited

namespace Interpreter

def ofOptions (options : Options) : Interpreter :=
  { affection := { range := options.affection }, options }

/-- Starts a program from its first line. Affections are kept. -/
def load (vm : Interpreter) (program : Program) : Interpreter :=
  { vm with program, cursor := {}, suspend := .running, currentText := none, offer := {} }

def isFinished (vm : Interpreter) : Bool :=
  vm.suspend = .running && vm.cursor.pendingJump.isNone && vm.program.size ≤ vm.cursor.line

def passLine (vm : Interpreter) : Interpreter :=
  { vm with cursor := vm.cursor.advance }

def takeJump (vm : Interpreter) : Interpreter :=
  { vm with cursor := { vm.cursor with pendingJump := none } }

/-- The menu taken away and the story running again. -/
def reopen (vm : Interpreter) : Interpreter :=
  { vm with offer := {}, suspend := .running }

end Interpreter

end VisualNovel

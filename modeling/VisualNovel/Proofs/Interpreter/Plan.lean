import VisualNovel.Interpreter.Basic
import VisualNovel.Script.Reading

/-!
# The plan of a move

What a move makes of the interpreter and what it asks for, in order, worked out
without a display. Of a display an input has to know whether its text is ready,
and a step nothing at all.
-/

namespace VisualNovel

namespace Interpreter

-- ---------------------------------------------------------------------------
-- One line
-- ---------------------------------------------------------------------------

/-- Goes on behind the label; an undefined one is logged and changes nothing. -/
def jumpToLabel (vm : Interpreter) (label : String) : Interpreter × List Action :=
  match vm.program.findLabel label with
  | some index => ({ vm with cursor := vm.cursor.jumpTo (index + 1) }, [])
  | none => (vm, [.log (.jumpFailed (Text.trim label) vm.cursor.line)])

/-- Carries out what a command on the given line asked for. An empty menu is
not offered. -/
def follow (vm : Interpreter) (line : Nat) : Effect → Interpreter × List Action
  | .nothing => (vm, [])
  | .display command => (vm, [.display line command])
  | .offer [] => (vm, [])
  | .offer (choice :: choices) =>
    ({ vm with
        offer := .ofChoices (choice :: choices)
        suspend := .waitingForChoice },
      [.display line (.presentChoices (choice :: choices))])
  | .jump label => ({ vm with cursor := { vm.cursor with pendingJump := some label } }, [])
  | .skip target => ({ vm with cursor := vm.cursor.jumpTo target }, [])
  | .wrote character value => (vm, [.wrote character value])
  | .unknown name => (vm, [.log (.unknownCommand name)])

def runCommand (vm : Interpreter) (line : Nat) (body : String) : Interpreter × List Action :=
  let reading := Command.read body
  let done :=
    reading.value.execute vm.options.branchScan vm.program vm.cursor vm.affection
  let (vm, actions) :=
    { vm with cursor := done.cursor, affection := done.affection }.follow line done.effect
  (vm, reading.errors.map (fun e => .log (.malformedCommand line e)) ++ actions)

/-- Runs a line the cursor has already passed. -/
def runLine (vm : Interpreter) (line : Nat) : LineForm → Interpreter × List Action
  | .command body => vm.runCommand line body
  | .label _ => (vm, [])
  | .dialogue text =>
    ({ vm with currentText := some text, suspend := .waitingForInput },
      [.display line (.showText text)])

/-- A pending jump is a step of its own and passes no line. Gives nothing at the
end of the program. -/
def stepLine? (vm : Interpreter) : Option (Interpreter × List Action) :=
  match vm.cursor.pendingJump with
  | some label =>
    some ({ vm with cursor := { vm.cursor with pendingJump := none } }.jumpToLabel label)
  | none =>
    match vm.program.form? vm.cursor.line with
    | none => none
    | some form =>
      some ({ vm with cursor := vm.cursor.advance }.runLine
        (vm.program.lineNumber vm.cursor.line) form)

-- ---------------------------------------------------------------------------
-- Steps
-- ---------------------------------------------------------------------------

/-- Runs lines until the story waits or ends, and logs it when `fuel` lines were
not enough. -/
def runChain : Nat → Interpreter → Interpreter × List Action
  | fuel, vm =>
    if vm.suspend = .running then
      match fuel with
      | 0 => (vm, [.log (.chainCut vm.options.maxChainSteps vm.cursor.line)])
      | fuel + 1 =>
        match vm.stepLine? with
        | none => (vm, [])
        | some (next, actions) =>
          let (last, more) := runChain fuel next
          (last, actions ++ more)
    else (vm, [])

/-- Closes the menu, goes to the label picked, and runs on from there. -/
def resolveChoice (vm : Interpreter) (label : String) : Interpreter × List Action :=
  let (vm, jump) := { vm with offer := {}, suspend := .running }.jumpToLabel label
  let (vm, chain) := vm.runChain vm.options.maxChainSteps
  (vm, .closeMenu :: jump ++ chain)

structure Step where
  /-- False once the story has nothing left to execute. -/
  running : Bool
  next : Interpreter
  actions : List Action := []

def step (vm : Interpreter) : Step :=
  match vm.suspend with
  | .waitingForChoice =>
    match vm.offer.poll with
    | (none, offer) => { running := true, next := { vm with offer } }
    | (some label, offer) =>
      let (next, actions) := { vm with offer }.resolveChoice label
      { running := true, next, actions }
  | .waitingForInput => { running := true, next := vm }
  | .running =>
    match vm.stepLine? with
    | none => { running := false, next := vm }
    | some (next, actions) => { running := true, next, actions }

-- ---------------------------------------------------------------------------
-- Inputs
-- ---------------------------------------------------------------------------

/-- Takes an input; `ready` says whether the text on screen is shown in full.
A click on text that is not ready asks the display to complete it. -/
def input (vm : Interpreter) (ready : Bool) (input : Input) :
    Except RuntimeError (InputOutcome × Interpreter) :=
  match vm.suspend, input with
  | .waitingForInput, .click =>
    if ready then .ok (.resumed, { vm with suspend := .running })
    else .ok (.revealCompleted, vm)
  | .waitingForChoice, .hover index =>
    (vm.offer.hover index).map fun offer => (.hovered, { vm with offer })
  | .waitingForChoice, .select index =>
    (vm.offer.select index).map fun offer => (.selectionRecorded, { vm with offer })
  | suspend, .select _ =>
    .error (.stateMismatch Suspend.waitingForChoice.name suspend.name)
  | _, _ => .ok (.ignored, vm)

end Interpreter

end VisualNovel

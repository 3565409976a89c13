import VisualNovel.Display.Sink
import VisualNovel.Interpreter.Basic
import VisualNovel.Script.Reading

/-!
# A story on a display

The moves of an interpreter: executing a step, and taking an input. What a line
wants shown is handed to the display at once, whatever is still to be done for
the line, and all that follows has to do with what the display has become. A
refusal is logged.
-/

namespace VisualNovel

structure Session (σ : Type) where
  vm : Interpreter
  display : σ

namespace Session

/-- What was asked for and logged on the way to another session, in order. -/
structure Stretch (σ : Type) where
  next : Session σ
  actions : List Action := []
  log : List LogEvent := []

/-- Goes on from where the first stretch leads. -/
def Stretch.andThen (first : Stretch σ) (go : Session σ → Stretch σ) : Stretch σ :=
  let second := go first.next
  { next := second.next
    actions := first.actions ++ second.actions
    log := first.log ++ second.log }

structure Turn (σ : Type) extends Stretch σ where
  /-- False once the story has nothing left to execute. -/
  running : Bool

-- ---------------------------------------------------------------------------
-- Calls of the display, and the log
-- ---------------------------------------------------------------------------

/-- Shows something for the line at the index. -/
def send (sink : DisplaySink σ) (session : Session σ) (index : Nat) (command : DisplayCommand) :
    Stretch σ :=
  let line := session.vm.program.lineNumber index
  let response := sink.execute session.display command
  { next := { session with display := response.display }
    actions := [.display line command]
    log := response.log ++ response.refusal.toList.map (.commandRefused line) }

def report (session : Session σ) (events : List LogEvent) : Stretch σ :=
  { next := session, actions := events.map .log, log := events }

/-- Shows a menu, for the line just passed, and waits for a pick. An empty menu is
not offered. -/
def presentChoices (sink : DisplaySink σ) (session : Session σ) (choices : List Choice) :
    Stretch σ :=
  if choices.isEmpty then { next := session }
  else
    let shown := session.send sink (session.vm.cursor.line - 1) (.presentChoices choices)
    let waiting := { shown.next.vm with
      offer := .ofChoices choices, suspend := .waitingForChoice }
    { shown with next := { shown.next with vm := waiting } }

/-- Takes the menu away; the story runs again even if the display refuses. -/
def closeMenu (sink : DisplaySink σ) (session : Session σ) : Stretch σ :=
  let response := sink.execute session.display .hideChoices
  { next := ⟨session.vm.reopen, response.display⟩
    actions := [.closeMenu]
    log := response.log ++ response.refusal.toList.map .menuNotClosed }

-- ---------------------------------------------------------------------------
-- One line
-- ---------------------------------------------------------------------------

/-- Goes on behind the label; an undefined one is logged and changes nothing. -/
def jumpToLabel (session : Session σ) (label : String) : Stretch σ :=
  match session.vm.program.findLabel label with
  | some index =>
    { next := { session with
        vm := { session.vm with cursor := session.vm.cursor.jumpTo (index + 1) } } }
  | none => session.report [.jumpFailed (Text.trim label) session.vm.cursor.line]

/-- Carries out what the command at the index asked for. -/
def follow (sink : DisplaySink σ) (session : Session σ) (index : Nat) : Effect → Stretch σ
  | .nothing => { next := session }
  | .display command => session.send sink index command
  | .offer choices => session.presentChoices sink choices
  | .jump label =>
    let cursor := { session.vm.cursor with pendingJump := some label }
    { next := { session with vm := { session.vm with cursor } } }
  | .skip target =>
    { next := { session with
        vm := { session.vm with cursor := session.vm.cursor.jumpTo target } } }
  | .wrote character value => { next := session, actions := [.wrote character value] }
  | .unknown name => session.report [.unknownCommand name]

def runCommand (sink : DisplaySink σ) (session : Session σ) (index : Nat) (body : String) :
    Stretch σ :=
  let reading := Command.read body
  let line := session.vm.program.lineNumber index
  (session.report (reading.errors.map (.malformedCommand line))).andThen fun ⟨vm, display⟩ =>
    let done := reading.value.execute vm.options.branchScan vm.program vm.cursor vm.affection
    let executed := { vm with cursor := done.cursor, affection := done.affection }
    Session.follow sink ⟨executed, display⟩ index done.effect

/-- Runs the line at the index, which the cursor has already passed. -/
def runLine (sink : DisplaySink σ) (session : Session σ) (index : Nat) : LineForm → Stretch σ
  | .command body => session.runCommand sink index body
  | .label _ => { next := session }
  | .dialogue text =>
    let told := { session with vm := { session.vm with currentText := some text } }
    let shown := told.send sink index (.showText text)
    let waiting := { shown.next.vm with suspend := .waitingForInput }
    { shown with next := { shown.next with vm := waiting } }

/-- A pending jump is a step of its own and passes no line. Gives nothing at the
end of the program. -/
def stepLine? (sink : DisplaySink σ) (session : Session σ) : Option (Stretch σ) :=
  match session.vm.cursor.pendingJump with
  | some label => some ({ session with vm := session.vm.takeJump }.jumpToLabel label)
  | none =>
    match session.vm.program.form? session.vm.cursor.line with
    | none => none
    | some form =>
      some ({ session with vm := session.vm.passLine }.runLine sink session.vm.cursor.line form)

-- ---------------------------------------------------------------------------
-- Steps
-- ---------------------------------------------------------------------------

/-- Runs lines until the story waits or ends, and logs it when `fuel` lines were
not enough. -/
def runChain (sink : DisplaySink σ) : Nat → Session σ → Stretch σ
  | fuel, session =>
    if session.vm.suspend = .running then
      match fuel with
      | 0 =>
        session.report [.chainCut session.vm.options.maxChainSteps session.vm.cursor.line]
      | fuel + 1 =>
        match session.stepLine? sink with
        | none => { next := session }
        | some stretch => stretch.andThen (runChain sink fuel)
    else { next := session }

/-- Closes the menu, goes to the label picked, and runs on from there. -/
def resolveChoice (sink : DisplaySink σ) (session : Session σ) (label : String) : Stretch σ :=
  ((session.closeMenu sink).andThen (·.jumpToLabel label)).andThen fun session =>
    session.runChain sink session.vm.options.maxChainSteps

def step (sink : DisplaySink σ) (session : Session σ) : Turn σ :=
  match session.vm.suspend with
  | .waitingForChoice =>
    match session.vm.offer.poll with
    | (none, offer) =>
      { running := true, next := { session with vm := { session.vm with offer } } }
    | (some label, offer) =>
      let polled := { session with vm := { session.vm with offer } }
      { polled.resolveChoice sink label with running := true }
  | .waitingForInput => { running := true, next := session }
  | .running =>
    match session.stepLine? sink with
    | none => { running := false, next := session }
    | some stretch => { stretch with running := true }

-- ---------------------------------------------------------------------------
-- Inputs
-- ---------------------------------------------------------------------------

/-- Takes an input. A click on waiting text asks the display whether the text is
shown in full, and to complete it if it is not. -/
def input (sink : DisplaySink σ) (session : Session σ) (input : Input) :
    Except RuntimeError (InputOutcome × Session σ) :=
  match session.vm.suspend, input with
  | .waitingForInput, .click =>
    if sink.isTextReady session.display then
      .ok (.resumed, { session with vm := { session.vm with suspend := .running } })
    else .ok (.revealCompleted, { session with display := sink.completeText session.display })
  | .waitingForChoice, .hover index =>
    (session.vm.offer.hover index).map fun offer =>
      (.hovered, { session with vm := { session.vm with offer } })
  | .waitingForChoice, .select index =>
    (session.vm.offer.select index).map fun offer =>
      (.selectionRecorded, { session with vm := { session.vm with offer } })
  | suspend, .select _ =>
    .error (.stateMismatch Suspend.waitingForChoice.name suspend.name)
  | _, _ => .ok (.ignored, session)

end Session

end VisualNovel

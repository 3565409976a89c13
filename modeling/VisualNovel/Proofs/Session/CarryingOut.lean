import VisualNovel.Interpreter.Session
import VisualNovel.Proofs.Interpreter.LineRules

/-!
# Carrying out a plan

A session calls its display in the midst of a move. What it does then, and all it asks for
next, is still what was planned without a display: every function of a session comes to
carrying out the plan of it (`Session.step_eq_carryOut`, `Session.input_eq_map`), whatever
the display answers on the way.
-/

namespace VisualNovel

-- ---------------------------------------------------------------------------
-- Actions
-- ---------------------------------------------------------------------------

namespace DisplaySink

/-- Carries out one action. -/
def perform (sink : DisplaySink σ) (display : σ) : Action → σ × List LogEvent
  | .display line command =>
    let response := sink.execute display command
    (response.display,
      response.log ++ response.refusal.toList.map (.commandRefused line ·))
  | .closeMenu =>
    let response := sink.execute display .hideChoices
    (response.display, response.log ++ response.refusal.toList.map .menuNotClosed)
  | .wrote .. => (display, [])
  | .log event => (display, [event])

def performAll (sink : DisplaySink σ) (display : σ) : List Action → σ × List LogEvent
  | [] => (display, [])
  | action :: actions =>
    let (display, log) := sink.perform display action
    let (display, more) := sink.performAll display actions
    (display, log ++ more)

/-- What a session becomes, and what is logged, when the interpreter's part in a move and the
actions are as planned. -/
def carryOut (sink : DisplaySink σ) (display : σ) (plan : Interpreter × List Action) :
    Session.Stretch σ :=
  let done := sink.performAll display plan.2
  { next := ⟨plan.1, done.1⟩, actions := plan.2, log := done.2 }

section
variable (sink : DisplaySink σ) (display : σ)

theorem performAll_append (actions more : List Action) :
    sink.performAll display (actions ++ more) =
      let first := sink.performAll display actions
      let second := sink.performAll first.1 more
      (second.1, first.2 ++ second.2) := by
  induction actions generalizing display with
  | nil => rfl
  | cons action actions ih => simp only [List.cons_append, performAll, ih, List.append_assoc]

theorem performAll_singleton (action : Action) :
    sink.performAll display [action] = sink.perform display action := by
  simp only [performAll, List.append_nil]

theorem performAll_logs (events : List LogEvent) :
    sink.performAll display (events.map .log) = (display, events) := by
  induction events with
  | nil => rfl
  | cons event events ih =>
    simp only [List.map_cons, performAll, perform, ih, List.singleton_append]

/-- A plan, and then another one for where it leads, are carried out as one. -/
theorem carryOut_andThen {go : Session σ → Session.Stretch σ} {vm : Interpreter}
    {more : Interpreter × List Action} (actions : List Action)
    (h : ∀ display, go ⟨vm, display⟩ = sink.carryOut display more) :
    (sink.carryOut display (vm, actions)).andThen go =
      sink.carryOut display (more.1, actions ++ more.2) := by
  simp only [carryOut, Session.Stretch.andThen, h, performAll_append]

end

end DisplaySink

/-- A command that offers a menu leaves the cursor where it is. -/
theorem Command.execute_cursor {command : Command} {table : AffectionTable}
    (h : (command.execute scan program cursor table).effect = .offer choices) :
    (command.execute scan program cursor table).cursor = cursor := by
  cases command with
  | ifHolds condition | elseIf condition | otherwise =>
    simp only [execute] at h
    split at h <;> first | cases h | (split at h <;> cases h)
  | endIf => cases h
  | _ => rfl

namespace Session

section
variable (sink : DisplaySink σ) (session : Session σ)

theorem send_eq_carryOut (index : Nat) (command : DisplayCommand) :
    session.send sink index command = sink.carryOut session.display
      (session.vm, [.display (session.vm.program.lineNumber index) command]) := by
  simp only [DisplaySink.carryOut, DisplaySink.performAll_singleton]
  rfl

theorem report_eq_carryOut (events : List LogEvent) :
    session.report events = sink.carryOut session.display (session.vm, events.map .log) := by
  simp only [DisplaySink.carryOut, DisplaySink.performAll_logs]
  rfl

theorem presentChoices_eq_carryOut (choice : Choice) (choices : List Choice) :
    session.presentChoices sink (choice :: choices) = sink.carryOut session.display
      ({ session.vm with offer := .ofChoices (choice :: choices), suspend := .waitingForChoice },
        [.display (session.vm.program.lineNumber (session.vm.cursor.line - 1))
          (.presentChoices (choice :: choices))]) := by
  rw [presentChoices, if_neg (by simp), send_eq_carryOut]
  rfl

theorem closeMenu_eq_carryOut :
    session.closeMenu sink = sink.carryOut session.display (session.vm.reopen, [.closeMenu]) := by
  simp only [DisplaySink.carryOut, DisplaySink.performAll_singleton]
  rfl

-- ---------------------------------------------------------------------------
-- One line
-- ---------------------------------------------------------------------------

theorem jumpToLabel_eq_carryOut (label : String) :
    session.jumpToLabel label = sink.carryOut session.display (session.vm.jumpToLabel label) := by
  rw [jumpToLabel, Interpreter.jumpToLabel]
  cases session.vm.program.findLabel label with
  | some index => rfl
  | none => exact report_eq_carryOut ..

theorem jumpToLabel_next (label : String) :
    (session.jumpToLabel label).next = { session with vm := (session.vm.jumpToLabel label).1 } := by
  rw [jumpToLabel, Interpreter.jumpToLabel]
  cases session.vm.program.findLabel label <;> rfl

/-- A menu is shown for the line just passed, and that is the line at the index. -/
theorem follow_eq_carryOut (index : Nat) (effect : Effect)
    (hpassed : ∀ choices, effect = .offer choices → session.vm.cursor.line = index + 1) :
    session.follow sink index effect = sink.carryOut session.display
      (session.vm.follow (session.vm.program.lineNumber index) effect) := by
  cases effect with
  | display command => exact send_eq_carryOut ..
  | unknown name => exact report_eq_carryOut ..
  | offer choices =>
    cases choices with
    | nil => rfl
    | cons choice choices =>
      rw [follow, presentChoices_eq_carryOut, hpassed _ rfl, Nat.add_sub_cancel]
      rfl
  | nothing | jump _ | skip _ | wrote _ _ => rfl

theorem runCommand_eq_carryOut (index : Nat) (body : String)
    (hpassed : session.vm.cursor.line = index + 1) :
    session.runCommand sink index body = sink.carryOut session.display
      (session.vm.runCommand (session.vm.program.lineNumber index) body) := by
  let vm := session.vm
  let command := (Command.read body).value
  let done := command.execute vm.options.branchScan vm.program vm.cursor vm.affection
  let executed := { vm with cursor := done.cursor, affection := done.affection }
  have hfollow (display : σ) :=
    follow_eq_carryOut sink ⟨executed, display⟩ index done.effect fun choices hoffer =>
      (congrArg Cursor.line (Command.execute_cursor hoffer)).trans hpassed
  rw [runCommand, report_eq_carryOut sink, List.map_map]
  exact DisplaySink.carryOut_andThen sink _ _ hfollow

theorem runLine_eq_carryOut (index : Nat) (form : LineForm)
    (hpassed : session.vm.cursor.line = index + 1) :
    session.runLine sink index form = sink.carryOut session.display
      (session.vm.runLine (session.vm.program.lineNumber index) form) := by
  cases form with
  | command body => exact runCommand_eq_carryOut sink session index body hpassed
  | label _ => rfl
  | dialogue text =>
    rw [runLine, send_eq_carryOut]
    rfl

theorem stepLine?_eq_carryOut :
    session.stepLine? sink = session.vm.stepLine?.map (sink.carryOut session.display) := by
  cases hj : session.vm.cursor.pendingJump with
  | some label =>
    simp only [stepLine?, Interpreter.stepLine?, hj]
    exact congrArg some (jumpToLabel_eq_carryOut sink ⟨session.vm.takeJump, session.display⟩ label)
  | none =>
    cases hf : session.vm.program.form? session.vm.cursor.line with
    | none => simp only [stepLine?, Interpreter.stepLine?, hj, hf, Option.map_none]
    | some form =>
      simp only [stepLine?, Interpreter.stepLine?, hj, hf]
      exact congrArg some
        (runLine_eq_carryOut sink ⟨session.vm.passLine, session.display⟩ _ form rfl)

-- ---------------------------------------------------------------------------
-- Steps
-- ---------------------------------------------------------------------------

/-- By induction on the lines still allowed: what the display has become by one line makes no
difference to the plan of the next. -/
theorem runChain_eq_carryOut (fuel : Nat) :
    session.runChain sink fuel = sink.carryOut session.display (session.vm.runChain fuel) := by
  induction fuel generalizing session with
  | zero =>
    unfold runChain Interpreter.runChain
    split
    · exact report_eq_carryOut ..
    · rfl
  | succ fuel ih =>
    unfold runChain Interpreter.runChain
    split
    · simp only [stepLine?_eq_carryOut]
      cases session.vm.stepLine? with
      | none => rfl
      | some done =>
        exact DisplaySink.carryOut_andThen sink _ _ fun display => ih ⟨done.1, display⟩
    · rfl

theorem resolveChoice_eq_carryOut (label : String) :
    session.resolveChoice sink label =
      sink.carryOut session.display (session.vm.resolveChoice label) := by
  let jump := session.vm.reopen.jumpToLabel label
  have hjump (display : σ) :
      Session.jumpToLabel ⟨session.vm.reopen, display⟩ label = sink.carryOut display jump :=
    jumpToLabel_eq_carryOut ..
  have hchain (display : σ) :=
    runChain_eq_carryOut sink ⟨jump.1, display⟩ jump.1.options.maxChainSteps
  rw [resolveChoice, closeMenu_eq_carryOut, DisplaySink.carryOut_andThen sink _ _ hjump]
  exact DisplaySink.carryOut_andThen sink _ _ hchain

/-- A step is the interpreter's, with its actions carried out. -/
theorem step_eq_carryOut :
    session.step sink =
      { sink.carryOut session.display (session.vm.step.next, session.vm.step.actions) with
        running := session.vm.step.running } := by
  cases hv : session.vm.suspend with
  | waitingForChoice =>
    rcases hp : session.vm.offer.poll with ⟨_ | label, offer⟩
    · simp only [step, Interpreter.step, hv, hp]
      rfl
    · simp only [step, Interpreter.step, hv, hp, resolveChoice_eq_carryOut]
  | waitingForInput =>
    simp only [step, Interpreter.step, hv]
    rfl
  | running =>
    simp only [step, Interpreter.step, hv, stepLine?_eq_carryOut]
    cases session.vm.stepLine? <;> rfl

theorem step_running : (session.step sink).running = session.vm.step.running := by
  rw [step_eq_carryOut]

theorem step_vm : (session.step sink).next.vm = session.vm.step.next := by
  rw [step_eq_carryOut]
  rfl

theorem step_actions : (session.step sink).actions = session.vm.step.actions := by
  rw [step_eq_carryOut]
  rfl

theorem step_log :
    (session.step sink).log = (sink.performAll session.display session.vm.step.actions).2 := by
  rw [step_eq_carryOut]
  rfl

/-- Behind a pick the menu is closed on the display, and the lines run on from the label. -/
theorem step_of_pick (hv : session.vm.suspend = .waitingForChoice)
    (hp : session.vm.offer.poll = (some label, rest)) :
    let landed := (session.vm.reopen.jumpToLabel label).1
    (session.step sink).next =
      (Session.runChain sink landed.options.maxChainSteps
        ⟨landed, (sink.execute session.display .hideChoices).display⟩).next := by
  intro landed
  let polled : Session σ := { session with vm := { session.vm with offer := rest } }
  let closed := (polled.closeMenu sink).next
  have hresolve : (session.step sink).next = (polled.resolveChoice sink label).next := by
    simp only [polled, Session.step, hv, hp]
  have hjump : (closed.jumpToLabel label).next = ⟨landed, closed.display⟩ :=
    jumpToLabel_next ..
  rw [hresolve]
  exact congrArg (fun landed => (landed.runChain sink landed.vm.options.maxChainSteps).next) hjump

-- ---------------------------------------------------------------------------
-- Inputs
-- ---------------------------------------------------------------------------

/-- An input is the interpreter's, told whether the text is ready; and the text is completed
if that is what the click was for. -/
theorem input_eq_map (given : Input) :
    session.input sink given =
      (session.vm.input (sink.isTextReady session.display) given).map fun (outcome, vm) =>
        let display :=
          if outcome = .revealCompleted then sink.completeText session.display
          else session.display
        (outcome, ⟨vm, display⟩) := by
  cases hv : session.vm.suspend with
  | running => cases given <;> simp [input, Interpreter.input, hv, Except.map]
  | waitingForInput =>
    cases hr : sink.isTextReady session.display <;>
      cases given <;> simp [input, Interpreter.input, hv, hr, Except.map]
  | waitingForChoice =>
    cases given with
    | click => simp [input, Interpreter.input, hv, Except.map]
    | hover index =>
      cases ho : session.vm.offer.hover index <;>
        simp [input, Interpreter.input, hv, ho, Except.map]
    | select index =>
      cases ho : session.vm.offer.select index <;>
        simp [input, Interpreter.input, hv, ho, Except.map]

end

end Session

end VisualNovel

import VisualNovel.Display.Recording
import VisualNovel.Proofs.Session.StateInvariant
import VisualNovel.Proofs.Session.Trail

/-!
# The limit of a chain

The lines behind a pick are run in one step, until the story waits or is over, and
no more of them than the limit allows (`runChain_chained`). The limit is looked at
before the next line is, so a chain is called cut if the story runs on after as
many lines as the limit allows, and also if it is over just then
(`Session.chain_limit`).
-/

namespace VisualNovel

namespace Interpreter

-- ---------------------------------------------------------------------------
-- Lines in a row
-- ---------------------------------------------------------------------------

/-- The interpreter so many lines on and what they ask for, if it runs so many. A jump
made counts as a line. -/
def linesOn (vm : Interpreter) : Nat → Option (Interpreter × List Action)
  | 0 => some (vm, [])
  | lines + 1 =>
    if vm.suspend = .running then
      match vm.stepLine? with
      | none => none
      | some (next, actions) =>
        (next.linesOn lines).map fun (last, more) => (last, actions ++ more)
    else none

/-- How a chain ends: at the limit, or as soon as the story waits or is over. -/
structure Chained (limit : Nat) (vm last : Interpreter) (lines : Nat) (actions : List Action) :
    Prop where
  le_limit : lines ≤ limit
  linesOn : vm.linesOn lines = some (last, actions)
  stops : lines < limit → last.suspend = .running → last.isFinished = true

/-- What is logged when the story is still running after as many lines as allowed. -/
def cutLog (last : Interpreter) (limit lines : Nat) : List LogEvent :=
  if last.suspend = .running ∧ lines = limit then
    [.chainCut last.options.maxChainSteps last.cursor.line]
  else []

section
variable {vm : Interpreter}

theorem linesOn_succ (hv : vm.suspend = .running) (h : vm.stepLine? = some done) :
    vm.linesOn (lines + 1) =
      (done.1.linesOn lines).map fun (last, more) => (last, done.2 ++ more) := by
  simp [linesOn, hv, h]

theorem exists_of_linesOn_succ (h : vm.linesOn (lines + 1) = some (last, actions)) :
    vm.suspend = .running ∧ ∃ done more, LineStep vm done ∧
      done.1.linesOn lines = some (last, more) ∧ actions = done.2 ++ more := by
  by_cases hv : vm.suspend = .running
  · cases hs : vm.stepLine? with
    | none => simp [linesOn, hv, hs] at h
    | some done =>
      rw [linesOn_succ hv hs, Option.map_eq_some_iff] at h
      obtain ⟨⟨mid, more⟩, hmore, heq⟩ := h
      cases heq
      exact ⟨hv, done, more, stepLine?_eq_some.mp hs, hmore, rfl⟩
  · simp [linesOn, hv] at h

theorem Chained.zero (vm : Interpreter) : Chained 0 vm vm 0 [] :=
  ⟨Nat.le_refl 0, rfl, fun h => absurd h (Nat.lt_irrefl 0)⟩

theorem Chained.stopped (h : vm.suspend = .running → vm.isFinished = true) :
    Chained limit vm vm 0 [] :=
  ⟨Nat.zero_le _, rfl, fun _ => h⟩

theorem Chained.succ (hv : vm.suspend = .running) (h : vm.stepLine? = some done)
    (hc : Chained limit done.1 last lines actions) :
    Chained (limit + 1) vm last (lines + 1) (done.2 ++ actions) := by
  refine ⟨Nat.succ_le_succ hc.le_limit, ?_, fun hlt => hc.stops (Nat.lt_of_succ_lt_succ hlt)⟩
  rw [linesOn_succ hv h, hc.linesOn, Option.map_some]

/-- A story that could go on has run as many lines as it may. -/
theorem Chained.at_limit (hc : Chained limit vm last lines actions) :
    last.suspend = .running ∧ lines = limit ↔
      last.suspend = .running ∧ (last.isFinished = false ∨ lines = limit) := by
  refine and_congr_right fun hv => ⟨.inr, ?_⟩
  rintro (hgoes | heq)
  · refine Nat.le_antisymm hc.le_limit (Nat.le_of_not_lt fun hlt => ?_)
    exact Bool.false_ne_true (hgoes.symm.trans (hc.stops hlt hv))
  · exact heq

theorem runChain_chained (limit : Nat) (vm : Interpreter) :
    let chain := vm.runChain limit
    ∃ lines actions, Chained limit vm chain.1 lines actions ∧
      chain.2 = actions ++ (chain.1.cutLog limit lines).map .log := by
  induction limit generalizing vm with
  | zero =>
    by_cases hv : vm.suspend = .running <;>
      exact ⟨0, [], by simpa [runChain, hv] using .zero vm, by simp [runChain, cutLog, hv]⟩
  | succ limit ih =>
    by_cases hv : vm.suspend = .running
    · cases hs : vm.stepLine? with
      | none =>
        have hend : Chained (limit + 1) vm vm 0 [] := .stopped fun _ => isFinished_iff.mpr ⟨hv, hs⟩
        exact ⟨0, [], by simpa [runChain, hv, hs] using hend, by simp [runChain, cutLog, hv, hs]⟩
      | some done =>
        obtain ⟨lines, actions, hchain, hactions⟩ := ih done.1
        refine ⟨lines + 1, done.2 ++ actions, ?_, ?_⟩
        · simpa [runChain, hv, hs] using hchain.succ hv hs
        · simp [runChain, cutLog, hv, hs, hactions]
    · have hwaits : Chained (limit + 1) vm vm 0 [] := .stopped fun h => absurd h hv
      exact ⟨0, [], by simpa [runChain, hv] using hwaits, by simp [runChain, cutLog, hv]⟩

/-- A step that takes a pick in. -/
theorem step_chained (hv : vm.suspend = .waitingForChoice)
    (hp : vm.offer.poll = (some label, rest)) :
    let jump := vm.reopen.jumpToLabel label
    let limit := vm.options.maxChainSteps
    vm.step.running = true ∧
      ∃ lines actions, Chained limit jump.1 vm.step.next lines actions ∧
        vm.step.actions =
          .closeMenu :: jump.2 ++ actions ++ (vm.step.next.cutLog limit lines).map .log := by
  intro jump limit
  have hlimit : jump.1.options.maxChainSteps = limit :=
    congrArg Options.maxChainSteps (jumpToLabel_options vm.reopen label)
  have hstep : vm.step = { running := true, next := _, actions := _ } := step_of_pick hv hp
  rw [hlimit] at hstep
  obtain ⟨lines, actions, hchain, hactions⟩ := jump.1.runChain_chained limit
  rw [hstep]
  refine ⟨rfl, lines, actions, hchain, ?_⟩
  rw [hactions, List.append_assoc]

end

end Interpreter

-- ---------------------------------------------------------------------------
-- Errors logged
-- ---------------------------------------------------------------------------

def LogEvent.isError (event : LogEvent) : Bool :=
  event.severity = .error

def Action.error? : Action → Option LogEvent
  | .log event => if event.isError then some event else none
  | .display .. | .closeMenu | .wrote .. => none

/-- Refusals are no errors. -/
theorem DisplaySink.silent_errors (sink : DisplaySink σ) (display : σ) (actions : List Action) :
    (sink.silent.performAll display actions).2.filter (·.isError) =
      actions.filterMap Action.error? := by
  induction actions generalizing display with
  | nil => rfl
  | cons action actions ih =>
    have hfirst : (sink.silent.perform display action).2.filter (·.isError) =
        action.error?.toList := by
      cases action with
      | display line command | closeMenu =>
        simp only [perform, silent, List.nil_append, Action.error?, Option.toList_none,
          List.filter_eq_nil_iff, List.mem_map]
        rintro _ ⟨error, -, rfl⟩
        simp [LogEvent.isError, LogEvent.severity]
      | wrote character value => rfl
      | log event => cases h : event.isError <;> simp [perform, Action.error?, h]
    rw [performAll, List.filter_append, hfirst, ih]
    cases h : action.error? <;> simp [h]

namespace Interpreter

section
variable {vm : Interpreter}

theorem jumpToLabel_errors (vm : Interpreter) (label : String) :
    (vm.jumpToLabel label).2.filterMap Action.error? = [] := by
  cases hf : vm.program.findLabel label with
  | none => rw [jumpToLabel_eq_of_none hf]; rfl
  | some index => rw [jumpToLabel_eq_of_some hf]; rfl

/-- No line is an error. -/
theorem LineStep.errors (h : LineStep vm done) : done.2.filterMap Action.error? = [] := by
  cases h with
  | jump _ => exact jumpToLabel_errors vm.takeJump _
  | label _ _ | dialogue _ _ => rfl
  | @command line body done _ _ ho =>
    have hobeyed : done.2.filterMap Action.error? = [] := by
      generalize (Command.read body).value = command at ho
      cases ho <;> rfl
    rw [List.filterMap_append, hobeyed, List.append_nil, List.filterMap_map]
    exact List.filterMap_eq_nil_iff.mpr fun _ _ => rfl

theorem linesOn_errors (h : vm.linesOn lines = some (last, actions)) :
    actions.filterMap Action.error? = [] := by
  induction lines generalizing vm actions with
  | zero =>
    cases h
    rfl
  | succ lines ih =>
    obtain ⟨-, done, more, hline, hmore, rfl⟩ := exists_of_linesOn_succ h
    rw [List.filterMap_append, hline.errors, ih hmore, List.append_nil]

/-- The cut itself is one. -/
theorem cutLog_errors (last : Interpreter) (limit lines : Nat) :
    ((last.cutLog limit lines).map Action.log).filterMap Action.error? =
      last.cutLog limit lines := by
  unfold cutLog
  split <;> rfl

end

end Interpreter

-- ---------------------------------------------------------------------------
-- Steps
-- ---------------------------------------------------------------------------

namespace Session

theorem options_after (sink : DisplaySink σ) (session : Session σ) (ops : List Operation) :
    (session.after sink ops).vm.options = session.vm.options :=
  after_preserve sink session (fun h hvm => h.options.trans hvm) rfl ops

/-- The step that takes a pick in closes the menu, goes to the label, and runs lines until
the story waits or is over, and no more of them than the limit. It logs an error just
when the story is running and either could go on or was over with the last line allowed. -/
theorem chain_limit (sink : DisplaySink σ) (options : Options) (display : σ)
    (ops : List Operation)
    (hpicked : ((start options display).after sink ops).vm.offer.selected = some picked) :
    let session := (start options display).after sink ops
    let turn := session.step sink
    let last := turn.next.vm
    let limit := options.maxChainSteps
    turn.running = true ∧
      ∃ choice, session.vm.offer.choices[picked]? = some choice ∧
        let jump := session.vm.reopen.jumpToLabel choice.target
        ∃ lines actions, Interpreter.Chained limit jump.1 last lines actions ∧
          let cut : List LogEvent :=
            if last.suspend = .running ∧ (last.isFinished = false ∨ lines = limit) then
              [.chainCut limit last.cursor.line] else []
          turn.actions = .closeMenu :: jump.2 ++ actions ++ cut.map .log ∧
            (session.step sink.silent).log.filter (·.isError) = cut := by
  intro session turn last limit
  have hcoherent : session.vm.Coherent := coherent_after sink options display ops
  have hv : session.vm.suspend = .waitingForChoice := by
    refine Decidable.byContradiction fun hne => ?_
    obtain ⟨-, -, hnone⟩ := hcoherent.consistent.closed hne
    exact absurd (hpicked.symm.trans hnone) (by simp)
  obtain ⟨-, hopen, -⟩ := hcoherent.of_waitingForChoice hv
  obtain ⟨choice, rest, hchoice, hpoll⟩ := hopen.poll_some hpicked
  have hoptions : session.vm.options = options := options_after sink _ ops
  obtain ⟨hrunning, lines, actions, hchain, hactions⟩ := Interpreter.step_chained hv hpoll
  rw [hoptions] at hchain hactions
  rw [← step_running sink] at hrunning
  rw [← step_vm sink] at hchain hactions
  rw [← step_actions sink] at hactions
  have hlast : last.options = options := options_after sink session [.step] |>.trans hoptions
  have hcut : last.cutLog options.maxChainSteps lines =
      if last.suspend = .running ∧ (last.isFinished = false ∨ lines = limit) then
        [.chainCut limit last.cursor.line] else [] := by
    rw [Interpreter.cutLog, hlast]
    exact ite_congr (propext hchain.at_limit) (fun _ => rfl) fun _ => rfl
  refine ⟨hrunning, choice, hchoice, lines, actions, hchain, ?_, ?_⟩
  · rw [← hcut]
    exact hactions
  · have hsilent : (session.step sink.silent).log.filter (·.isError) =
        turn.actions.filterMap Action.error? := by
      rw [step_log, sink.silent_errors, ← step_actions sink]
    have hclose : Action.error? .closeMenu = none := rfl
    have hquiet : (Action.closeMenu :: (session.vm.reopen.jumpToLabel choice.target).2 ++
        actions).filterMap Action.error? = [] := by
      simp [hclose, Interpreter.jumpToLabel_errors, Interpreter.linesOn_errors hchain.linesOn]
    rw [hsilent, hactions, List.filterMap_append, hquiet, Interpreter.cutLog_errors]
    exact hcut

/-- A loop without an end is cut. -/
theorem chain_limit_loop :
    let program : Program := ⟨[⟨1, "@choice 进入 -> loop"⟩, ⟨2, ":loop"⟩, ⟨3, "@jump loop"⟩]⟩
    let options : Options := { maxChainSteps := 2 }
    let ops : List Operation := [.load program, .step, .input (.select 0)]
    let session : Session RecordingDisplay := (start options {}).after RecordingDisplay.sink ops
    let turn := session.step RecordingDisplay.sink
    session.vm.offer.selected = some 0 ∧ turn.running = true ∧
      turn.next.vm.isFinished = false ∧ turn.log = [.chainCut 2 2] := by
  intro program options ops
  have hpicked : ((start options ({} : RecordingDisplay)).after RecordingDisplay.sink
      ops).vm.offer.selected = some 0 := by decide +kernel
  exact ⟨hpicked, (chain_limit RecordingDisplay.sink options {} ops hpicked).1, by decide +kernel,
    by decide +kernel⟩

/-- The last line of the story is the last one the limit allows: the chain is called cut,
and nothing is left to run. -/
theorem chainCut_of_finished :
    let program : Program := ⟨[⟨1, "@choice 走 -> 末"⟩, ⟨2, ":末"⟩, ⟨3, "@affection Yuki 1"⟩]⟩
    let ops : List Operation := [.load program, .step, .input (.select 0)]
    let session : Session RecordingDisplay :=
      (start { maxChainSteps := 1 } {}).after RecordingDisplay.sink ops
    let turn := session.step RecordingDisplay.sink
    session.vm.offer.selected = some 0 ∧ turn.next.vm.isFinished = true ∧
      turn.log = [.chainCut 1 3] ∧ (LogEvent.chainCut 1 3).severity = .error := by
  decide +kernel

end Session

end VisualNovel

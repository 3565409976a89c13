import VisualNovel.Display.Recording
import VisualNovel.Proofs.Diagnostic.Foretold
import VisualNovel.Proofs.Session.History
import VisualNovel.Stage.Basic

/-!
# Warnings in a run

An interpreter warns of nothing that the analysis of its program has not found,
whatever the display answers and the host does. A program without findings can
still leave warnings in the log: those of the display itself, and none besides if
the display refuses nothing (`Session.warnings_foretold`).
-/

namespace VisualNovel

-- ---------------------------------------------------------------------------
-- Displays that accept
-- ---------------------------------------------------------------------------

namespace DisplaySink

/-- None of the calls is refused, each made where those before it have led. -/
def AcceptsAll (sink : DisplaySink σ) (display : σ) : List DisplayCall → Prop
  | [] => True
  | call :: calls =>
    (∀ command, call = .execute command → (sink.execute display command).refusal = none) ∧
      AcceptsAll sink (sink.answer display call) calls

/-- What the display itself logs under the calls. -/
def ownLog (sink : DisplaySink σ) (display : σ) : List DisplayCall → List LogEvent
  | [] => []
  | .execute command :: calls =>
    let response := sink.execute display command
    response.log ++ sink.ownLog response.display calls
  | .completeText :: calls => sink.ownLog (sink.completeText display) calls

section
variable (sink : DisplaySink σ) (display : σ)

theorem acceptsAll_append (calls more : List DisplayCall) :
    sink.AcceptsAll display (calls ++ more) ↔
      sink.AcceptsAll display calls ∧ sink.AcceptsAll (sink.replay display calls) more := by
  induction calls generalizing display with
  | nil => simp [AcceptsAll, replay]
  | cons call calls ih => simp [AcceptsAll, ih, and_assoc, replay]

theorem ownLog_append (calls more : List DisplayCall) :
    sink.ownLog display (calls ++ more) =
      sink.ownLog display calls ++ sink.ownLog (sink.replay display calls) more := by
  induction calls generalizing display with
  | nil => rfl
  | cons call calls ih => cases call <;> simp [ownLog, ih, replay, answer]

end

end DisplaySink

def LogEvent.isWarning (event : LogEvent) : Bool :=
  event.severity = .warn

namespace DisplaySink

theorem perform_warnings (sink : DisplaySink σ) (display : σ) (action : Action)
    (haccepts : sink.AcceptsAll display action.calls)
    (hquiet : ∀ event, action = .log event → event.severity ≠ .warn) :
    (sink.perform display action).2.filter (·.isWarning) =
      (sink.ownLog display action.calls).filter (·.isWarning) := by
  cases action with
  | display line command =>
    have hrefusal := haccepts.1 command rfl
    simp [perform, ownLog, Action.calls, hrefusal]
  | closeMenu =>
    have hrefusal := haccepts.1 .hideChoices rfl
    simp [perform, ownLog, Action.calls, hrefusal]
  | wrote _ _ => rfl
  | log event => simp [perform, ownLog, Action.calls, LogEvent.isWarning, hquiet event rfl]

theorem performAll_warnings (sink : DisplaySink σ) (display : σ) (actions : List Action)
    (haccepts : sink.AcceptsAll display (actions.flatMap Action.calls))
    (hquiet : ∀ event, .log event ∈ actions → event.severity ≠ .warn) :
    (sink.performAll display actions).2.filter (·.isWarning) =
      (sink.ownLog display (actions.flatMap Action.calls)).filter (·.isWarning) := by
  induction actions generalizing display with
  | nil => rfl
  | cons action actions ih =>
    rw [List.flatMap_cons] at haccepts ⊢
    obtain ⟨hfirst, hrest⟩ := (acceptsAll_append ..).mp haccepts
    rw [← perform_display] at hrest
    have hone := perform_warnings sink display action hfirst
      fun event he => hquiet event (he ▸ List.mem_cons_self)
    have hmore := ih _ hrest fun event he => hquiet event (List.mem_cons_of_mem _ he)
    simp only [performAll, List.filter_append, hone, hmore, ownLog_append, ← perform_display]

end DisplaySink

-- ---------------------------------------------------------------------------
-- Runs
-- ---------------------------------------------------------------------------

namespace Session

/-- What is logged by the operations, one after another. -/
def log (sink : DisplaySink σ) (session : Session σ) : List Operation → List LogEvent
  | [] => []
  | op :: ops =>
    let performed := session.operate sink op
    performed.log ++ performed.next.log sink ops

end Session

namespace Interpreter

theorem operate_explained (hs : Sourced vm) (hlog : .log event ∈ (vm.operate ready op).actions) :
    vm.program.Explains event := by
  cases op with
  | step => exact step_explained hs hlog
  | input given =>
    simp only [operate] at hlog
    split at hlog <;> simp at hlog
  | load program => simp [operate] at hlog

end Interpreter

namespace Session

section
variable (sink : DisplaySink σ)

theorem operate_warnings (session : Session σ) (op : Operation)
    (haccepts : sink.AcceptsAll session.display (session.operate sink op).moment.calls)
    (hquiet : ∀ event, .log event ∈ (session.operate sink op).actions → event.severity ≠ .warn) :
    (session.operate sink op).log.filter (·.isWarning) =
      (sink.ownLog session.display (session.operate sink op).moment.calls).filter
        (·.isWarning) := by
  cases op with
  | step =>
    simp only [operate_step, Performed.moment, Moment.calls, reduceCtorEq, if_false,
      List.append_nil] at haccepts hquiet ⊢
    exact sink.performAll_warnings _ _ haccepts hquiet
  | input given =>
    cases h : session.input sink given with
    | error _ => simp [operate, h, Performed.moment, Moment.calls, DisplaySink.ownLog]
    | ok done =>
      by_cases ho : done.1 = .revealCompleted <;>
        simp [operate, h, ho, Performed.moment, Moment.calls, DisplaySink.ownLog]
  | load program => rfl

/-- Of operations that load nothing. -/
theorem moments_explained (session : Session σ) (hs : session.vm.Sourced)
    (hops : ∀ other, .load other ∉ ops) (hmoment : moment ∈ session.moments sink ops)
    (hlog : .log event ∈ moment.actions) : session.vm.program.Explains event := by
  induction ops generalizing session with
  | nil => simp [moments] at hmoment
  | cons op ops ih =>
    obtain ⟨hop, hops⟩ := noLoad_cons.mp hops
    rcases List.mem_cons.mp hmoment with rfl | hmoment
    · rw [operate_moment] at hlog
      exact Interpreter.operate_explained hs hlog
    · have hprogram := operate_program sink session hop
      have hnext : (session.operate sink op).next.vm.Sourced := by
        rw [operate_vm]
        exact (Interpreter.operate_moves ..).preserve Interpreter.Sourced.move hs
      exact hprogram ▸ ih _ hnext hops hmoment

/-- With a display that refuses nothing, all warnings of a run are its own unless
a line gives reason to log one. -/
theorem log_warnings (session : Session σ)
    (haccepts : sink.AcceptsAll session.display
      ((session.moments sink ops).flatMap Moment.calls))
    (hquiet : ∀ moment ∈ session.moments sink ops, ∀ event, .log event ∈ moment.actions →
      event.severity ≠ .warn) :
    (session.log sink ops).filter (·.isWarning) =
      (sink.ownLog session.display ((session.moments sink ops).flatMap Moment.calls)).filter
        (·.isWarning) := by
  induction ops generalizing session with
  | nil => rfl
  | cons op ops ih =>
    simp only [moments, List.flatMap_cons, List.forall_mem_cons] at haccepts hquiet ⊢
    obtain ⟨hfirst, hrest⟩ := (sink.acceptsAll_append ..).mp haccepts
    rw [← operate_display] at hrest
    have hone := operate_warnings sink session op hfirst hquiet.1
    have hmore := ih _ hrest hquiet.2
    simp only [log, List.filter_append, hone, hmore, sink.ownLog_append, ← operate_display]

end

/-- Whatever the interpreter warns of in a run of a program, its analysis has
found. Of a program without findings only the display can have warnings. -/
theorem warnings_foretold (sink : DisplaySink σ) (vm : Interpreter) (program : Program)
    (display : σ) (script : String) (ops : List Operation) (hops : ∀ other, .load other ∉ ops) :
    let session : Session σ := ⟨vm.load program, display⟩
    let report := program.analyze script
    let calls := (session.moments sink ops).flatMap Moment.calls
    (∀ moment ∈ session.moments sink ops, ∀ event, .log event ∈ moment.actions →
        event.Foretold report) ∧
      (report = [] → sink.AcceptsAll display calls →
        (session.log sink ops).filter (·.isWarning) =
          (sink.ownLog display calls).filter (·.isWarning)) := by
  intro session report calls
  have hs : session.vm.Sourced := Interpreter.Sourced.load vm program
  have hforetold : ∀ moment ∈ session.moments sink ops, ∀ event, .log event ∈ moment.actions →
      event.Foretold report := fun moment hmoment event hlog =>
    (moments_explained sink session hs hops hmoment hlog).foretold script
  refine ⟨hforetold, fun hreport haccepts => ?_⟩
  refine log_warnings sink session haccepts fun moment hmoment event hlog => ?_
  have := hforetold moment hmoment event hlog
  exact LogEvent.Foretold.severity_ne (hreport ▸ this)

/-- A fault in a command, a command there is not, and a jump to nowhere. -/
theorem warnings_foretold_threeFaults :
    let program : Program := ⟨[⟨1, "@bg x room.png"⟩, ⟨2, "@fly"⟩, ⟨4, "@jump nowhere"⟩]⟩
    let session : Session RecordingDisplay := ⟨({} : Interpreter).load program, {}⟩
    let ops : List Operation := [.step, .input .click, .step, .step, .step]
    (∀ other, .load other ∉ ops) ∧
      session.log RecordingDisplay.sink ops =
        [.malformedCommand 1 (.invalidLayer "bg" "x"), .unknownCommand "fly",
          .jumpFailed "nowhere" 3] ∧
      ∀ moment ∈ session.moments RecordingDisplay.sink ops, ∀ event, .log event ∈ moment.actions →
        event.Foretold (program.analyze "first.rgo") := by
  intro program session ops
  have hops : ∀ other, .load other ∉ ops := by simp [ops]
  exact ⟨hops, by decide +kernel,
    (warnings_foretold RecordingDisplay.sink {} program {} "first.rgo" ops hops).1⟩

/-- A background is shown, and its transition is not one the stage knows. -/
theorem accepted_transition_warns :
    let program : Program := ⟨[⟨1, "@bg 0 room.png mask.png fade"⟩]⟩
    let files : Files := { entries := [(["room.png"], some .empty)] }
    let session : Session Stage := ⟨({} : Interpreter).load program, .ofConfig {} files⟩
    program.analyze "first.rgo" = [] ∧
      Stage.sink.AcceptsAll session.display
        ((session.moments Stage.sink [.step]).flatMap Moment.calls) ∧
      session.log Stage.sink [.step] = [.unknownTransition "fade"] ∧
      (LogEvent.unknownTransition "fade").severity = .warn := by
  intro program files session
  have hcalls : (session.moments Stage.sink [.step]).flatMap Moment.calls =
      [.execute (.setImage 0 "room.png" (some ⟨"fade", ["mask.png"]⟩))] := by decide +kernel
  refine ⟨by decide +kernel, ?_, by decide +kernel, rfl⟩
  rw [hcalls]
  refine ⟨fun command h => ?_, trivial⟩
  cases h
  decide +kernel

end Session

end VisualNovel

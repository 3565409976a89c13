import VisualNovel.Proofs.Interpreter.Reasons
import VisualNovel.Proofs.Session.CarryingOut

/-!
# Histories

What a host can do with a session, in any order: step it, give it an input, load
a program. Each operation leaves a `Moment`, what was replied and asked for and
the interpreter it left. `operate_moment`: a moment needs of the display no more
than whether its text is ready; `operate_display`: the display is where the
calls of the moment bring it.
-/

namespace VisualNovel

inductive Operation where
  | step
  | input (given : Input)
  | load (program : Program)
  deriving DecidableEq, Repr

inductive Reply where
  | stepped (running : Bool)
  | answered (outcome : InputOutcome)
  | refused (error : RuntimeError)
  | loaded
  deriving DecidableEq, Repr

theorem noLoad_cons {op : Operation} {ops : List Operation} :
    (∀ program, Operation.load program ∉ op :: ops) ↔
      (∀ program, op ≠ .load program) ∧ ∀ program, Operation.load program ∉ ops := by
  simp only [List.mem_cons, not_or, forall_and, ne_comm, ne_eq]

structure Moment where
  reply : Reply
  actions : List Action := []
  vm : Interpreter
  deriving DecidableEq, Repr

-- ---------------------------------------------------------------------------
-- Calls of a display
-- ---------------------------------------------------------------------------

inductive DisplayCall where
  | execute (command : DisplayCommand)
  | completeText
  deriving DecidableEq, Repr

def Action.calls : Action → List DisplayCall
  | .display _ command => [.execute command]
  | .closeMenu => [.execute .hideChoices]
  | .wrote .. | .log _ => []

/-- The calls an operation makes, in order. -/
def Moment.calls (moment : Moment) : List DisplayCall :=
  moment.actions.flatMap Action.calls ++
    if moment.reply = .answered .revealCompleted then [.completeText] else []

namespace DisplaySink

def answer (sink : DisplaySink σ) (display : σ) : DisplayCall → σ
  | .execute command => (sink.execute display command).display
  | .completeText => sink.completeText display

def replay (sink : DisplaySink σ) (display : σ) (calls : List DisplayCall) : σ :=
  calls.foldl sink.answer display

theorem perform_display (sink : DisplaySink σ) (display : σ) (action : Action) :
    (sink.perform display action).1 = sink.replay display action.calls := by
  cases action <;> rfl

theorem performAll_display (sink : DisplaySink σ) (display : σ) (actions : List Action) :
    (sink.performAll display actions).1 = sink.replay display (actions.flatMap Action.calls) := by
  induction actions generalizing display with
  | nil => rfl
  | cons action actions ih =>
    simp only [performAll, List.flatMap_cons, ih, perform_display, replay, List.foldl_append]

end DisplaySink

-- ---------------------------------------------------------------------------
-- Operations
-- ---------------------------------------------------------------------------

/-- What an operation does when the display answers `ready`. -/
def Interpreter.operate (vm : Interpreter) (ready : Bool) : Operation → Moment
  | .step => ⟨.stepped vm.step.running, vm.step.actions, vm.step.next⟩
  | .input given =>
    match vm.input ready given with
    | .ok (outcome, next) => ⟨.answered outcome, [], next⟩
    | .error error => ⟨.refused error, [], vm⟩
  | .load program => ⟨.loaded, [], vm.load program⟩

theorem Interpreter.operate_moves (vm : Interpreter) (ready : Bool) (op : Operation) :
    Moves vm (vm.operate ready op).vm := by
  cases op with
  | step => exact step_moves vm
  | input given =>
    cases h : vm.input ready given with
    | ok done => simpa [operate, h] using input_moves h
    | error _ => simpa [operate, h] using .refl
  | load program => exact .single .load

/-- Only a load changes the program. -/
theorem Interpreter.operate_program (vm : Interpreter) (ready : Bool)
    (hop : ∀ program, op ≠ .load program) : (vm.operate ready op).vm.program = vm.program := by
  cases op with
  | step => exact step_program vm
  | input given =>
    cases h : vm.input ready given with
    | error _ => simp [operate, h]
    | ok done => simpa [operate, h] using input_program h
  | load program => exact absurd rfl (hop program)

namespace Session

/-- An interpreter that has not loaded anything, and a display. -/
def start (options : Options) (display : σ) : Session σ :=
  ⟨.ofOptions options, display⟩

structure Performed (σ : Type) where
  next : Session σ
  reply : Reply
  actions : List Action := []
  log : List LogEvent := []

def Performed.moment (performed : Performed σ) : Moment :=
  ⟨performed.reply, performed.actions, performed.next.vm⟩

def operate (sink : DisplaySink σ) (session : Session σ) : Operation → Performed σ
  | .step =>
    let turn := session.step sink
    ⟨turn.next, .stepped turn.running, turn.actions, turn.log⟩
  | .input given =>
    match session.input sink given with
    | .ok (outcome, next) => ⟨next, .answered outcome, [], []⟩
    | .error error => ⟨session, .refused error, [], []⟩
  | .load program => ⟨{ session with vm := session.vm.load program }, .loaded, [], []⟩

/-- The session after all of the operations. -/
def after (sink : DisplaySink σ) (session : Session σ) : List Operation → Session σ
  | [] => session
  | op :: ops => (session.operate sink op).next.after sink ops

def moments (sink : DisplaySink σ) (session : Session σ) : List Operation → List Moment
  | [] => []
  | op :: ops =>
    let performed := session.operate sink op
    performed.moment :: performed.next.moments sink ops

section
variable (sink : DisplaySink σ) (session : Session σ)

/-- A display takes part in an input by completing its text, or not at all. -/
theorem takes_of_input {given : Input} (h : session.input sink given = .ok (outcome, next)) :
    session.vm.Takes (sink.isTextReady session.display) given outcome next.vm ∧
      next.display =
        if outcome = .revealCompleted then sink.completeText session.display
        else session.display := by
  cases hvm : session.vm.input (sink.isTextReady session.display) given with
  | error _ => simp [input_eq_map, hvm, Except.map] at h
  | ok done =>
    simp only [input_eq_map, hvm, Except.map, Except.ok.injEq, Prod.mk.injEq] at h
    obtain ⟨rfl, rfl⟩ := h
    exact ⟨Interpreter.takes_of_input hvm, rfl⟩

theorem operate_step :
    session.operate sink .step =
      let plan := session.vm.step
      let done := sink.performAll session.display plan.actions
      ⟨⟨plan.next, done.1⟩, .stepped plan.running, plan.actions, done.2⟩ := by
  rw [operate, step_eq_carryOut]
  rfl

theorem operate_moment (op : Operation) :
    (session.operate sink op).moment =
      session.vm.operate (sink.isTextReady session.display) op := by
  cases op with
  | step => rw [operate_step, Performed.moment, Interpreter.operate]
  | input given =>
    cases h : session.vm.input (sink.isTextReady session.display) given <;>
      simp [operate, Interpreter.operate, input_eq_map, h, Except.map, Performed.moment]
  | load program => rfl

theorem operate_vm (op : Operation) :
    (session.operate sink op).next.vm =
      (session.vm.operate (sink.isTextReady session.display) op).vm :=
  congrArg Moment.vm (operate_moment sink session op)

theorem operate_program (hop : ∀ program, op ≠ .load program) :
    (session.operate sink op).next.vm.program = session.vm.program := by
  rw [operate_vm]
  exact session.vm.operate_program _ hop

theorem operate_display (op : Operation) :
    (session.operate sink op).next.display =
      sink.replay session.display (session.operate sink op).moment.calls := by
  cases op with
  | step =>
    have h := sink.performAll_display session.display session.vm.step.actions
    simpa [operate_step, Performed.moment, Moment.calls] using h
  | input given =>
    cases h : session.vm.input (sink.isTextReady session.display) given with
    | error _ => simp [operate, input_eq_map, h, Except.map, Performed.moment, Moment.calls,
        DisplaySink.replay]
    | ok done =>
      by_cases ho : done.1 = .revealCompleted <;>
        simp [operate, input_eq_map, h, ho, Except.map, Performed.moment, Moment.calls,
          DisplaySink.replay, DisplaySink.answer]
  | load program => rfl

/-- What every move keeps holds after any history. -/
theorem after_preserve {P : Interpreter → Prop}
    (h : ∀ {vm next}, Interpreter.Move vm next → P vm → P next) (hs : P session.vm)
    (ops : List Operation) : P (session.after sink ops).vm := by
  induction ops generalizing session with
  | nil => exact hs
  | cons op ops ih =>
    apply ih
    rw [operate_vm]
    exact (Interpreter.operate_moves ..).preserve h hs

end

end Session

end VisualNovel

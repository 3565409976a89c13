import VisualNovel.Proofs.Session.History
import VisualNovel.Proofs.Stage.Words

/-!
# What happens to a story on the stage

Its host steps it, gives it inputs and loads programs; the stage has its frames,
and its text may be completed: all in any order. Short of loading, whatever
happens leaves the stage with the words the story stands at (`Mirrors.act`).
-/

namespace VisualNovel

/-- What can happen to a story on the stage. -/
inductive Act where
  | host (op : Operation)
  /-- A frame of the stage. -/
  | update
  | completeText
  deriving DecidableEq, Repr

def Act.IsLoad (act : Act) : Prop :=
  ∃ program, act = .host (.load program)

namespace Session

def act (session : Session Stage) : Act → Session Stage
  | .host op => (session.operate Stage.sink op).next
  | .update => { session with display := session.display.update }
  | .completeText => { session with display := session.display.completeText }

/-- The session after all of the acts. -/
def afterActs (session : Session Stage) (acts : List Act) : Session Stage :=
  acts.foldl act session

theorem afterActs_preserve {P : Session Stage → Prop} {session : Session Stage}
    (h : ∀ act ∈ acts, ∀ middle, P middle → P (middle.act act)) (hs : P session) :
    P (session.afterActs acts) := by
  induction acts generalizing session with
  | nil => exact hs
  | cons act acts ih =>
    obtain ⟨hact, hacts⟩ := List.forall_mem_cons.mp h
    exact ih hacts (hact session hs)

-- ---------------------------------------------------------------------------
-- Commands
-- ---------------------------------------------------------------------------

/-- The commands the stage executes in an act. -/
def commandsIn (session : Session Stage) : Act → List DisplayCommand
  | .host op => Action.commands (session.operate Stage.sink op).actions
  | .update | .completeText => []

/-- The commands the stage executes in all of the acts, in order. -/
def commands (session : Session Stage) : List Act → List DisplayCommand
  | [] => []
  | act :: acts => session.commandsIn act ++ (session.act act).commands acts

section
variable (session : Session Stage)

theorem commands_append (acts more : List Act) :
    session.commands (acts ++ more) =
      session.commands acts ++ (session.afterActs acts).commands more := by
  induction acts generalizing session with
  | nil => rfl
  | cons act acts ih =>
    rw [List.cons_append, commands, commands, ih, List.append_assoc]
    rfl

theorem act_step :
    session.act (.host .step) = ⟨session.vm.step.next,
      (Stage.sink.performAll session.display session.vm.step.actions).1⟩ := by
  rw [act, operate_step]

theorem commandsIn_step :
    session.commandsIn (.host .step) = Action.commands session.vm.step.actions := by
  rw [commandsIn, operate_step]

theorem act_input {given : Input} (h : session.input Stage.sink given = .ok (outcome, next)) :
    session.act (.host (.input given)) = next := by
  simp [act, operate, h]

/-- An input that is refused changes no more than one that is ignored. -/
theorem takes_act (given : Input) :
    let next := session.act (.host (.input given))
    ∃ outcome, session.vm.Takes session.display.isTextReady given outcome next.vm ∧
      next.display =
        if outcome = .revealCompleted then session.display.completeText else session.display := by
  cases h : session.input Stage.sink given with
  | error _ =>
    have hnext : session.act (.host (.input given)) = session := by simp [act, operate, h]
    rw [hnext]
    exact ⟨.ignored, .ignored, rfl⟩
  | ok done =>
    rw [session.act_input h]
    exact ⟨done.1, takes_of_input Stage.sink session h⟩

theorem act_moves (act : Act) : Interpreter.Moves session.vm (session.act act).vm := by
  cases act with
  | host op =>
    have hvm : (session.act (.host op)).vm = _ := operate_vm Stage.sink session op
    exact hvm ▸ Interpreter.operate_moves ..
  | update | completeText => exact .refl

theorem commandsIn_input (given : Input) : session.commandsIn (.host (.input given)) = [] := by
  cases h : session.input Stage.sink given <;> simp [commandsIn, operate, h, Action.commands]

/-- No input makes the stage execute anything. -/
theorem commands_inputs (inputs : List Input) :
    session.commands (inputs.map (.host <| .input ·)) = [] := by
  induction inputs generalizing session with
  | nil => rfl
  | cons given inputs ih =>
    rw [List.map_cons, commands, commandsIn_input, ih]
    rfl

-- ---------------------------------------------------------------------------
-- Words
-- ---------------------------------------------------------------------------

/-- The commands are all that changes the words on the stage. -/
theorem words_act (act : Act) :
    (session.act act).display.words =
      (session.commandsIn act).foldl Words.put session.display.words := by
  cases act with
  | host op =>
    cases op with
    | step =>
      rw [act_step, commandsIn_step]
      exact session.display.words_performAll session.vm.step.actions
    | input given =>
      obtain ⟨_, -, hdisplay⟩ := session.takes_act given
      rw [commandsIn_input, hdisplay]
      split <;> rfl
    | load program => rfl
  | update => exact session.display.words_update
  | completeText => rfl

/-- On the stage stands what the story stands at. -/
def Mirrors (width : Nat) : Prop :=
  session.display.words = session.vm.words width

theorem Mirrors.act {session : Session Stage} {act : Act} (h : session.Mirrors width)
    (hact : ¬act.IsLoad) : (session.act act).Mirrors width := by
  unfold Mirrors at h ⊢
  rw [words_act, h]
  cases act with
  | host op =>
    cases op with
    | step =>
      rw [commandsIn_step, act_step]
      exact session.vm.words_step width
    | input given =>
      obtain ⟨_, htakes, -⟩ := session.takes_act given
      rw [commandsIn_input]
      exact (htakes.words width).symm
    | load program => exact absurd ⟨program, rfl⟩ hact
  | update | completeText => rfl

end

end Session

end VisualNovel

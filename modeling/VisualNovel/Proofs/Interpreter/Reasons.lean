import VisualNovel.Proofs.Interpreter.Moves

/-!
# Why an interpreter logs

A label that is to be jumped to, or can be picked, is named by some line of the
program, however many lines and inputs ago (`Sourced.move`). So all that an
interpreter logs has its reason in a line of the program, or in the limit of a
chain (`step_explained`).
-/

namespace VisualNovel

-- ---------------------------------------------------------------------------
-- Labels on their way
-- ---------------------------------------------------------------------------

/-- Some line of the program names the label as a target. -/
def Program.Targets (program : Program) (label : String) : Prop :=
  ∃ line ∈ program.lines, ∃ body, line.form = .command body ∧
    label ∈ (Command.read body).value.targets

namespace Offer

theorem choices_hover (h : hover offer index = .ok pointed) : pointed.choices = offer.choices := by
  unfold hover at h
  split at h <;> cases h
  rfl

theorem choices_select (h : select offer index = .ok picked) :
    picked.choices = offer.choices := by
  unfold select at h
  split at h <;> cases h
  rfl

theorem choices_poll (h : poll offer = (pick, rest)) : rest.choices = offer.choices := by
  unfold poll at h
  repeat' split at h
  all_goals cases h; rfl

theorem mem_of_poll (h : poll offer = (some label, rest)) :
    ∃ choice ∈ offer.choices, choice.target = label := by
  unfold poll at h
  repeat' split at h
  all_goals cases h
  rename_i choice hchoice
  exact ⟨choice, List.mem_of_getElem? hchoice, rfl⟩

end Offer

namespace Interpreter

/-- A label waiting to be jumped to, or to be picked, stands on a line. -/
structure Sourced (vm : Interpreter) : Prop where
  pending : ∀ label, vm.cursor.pendingJump = some label → vm.program.Targets label
  offered : ∀ choice ∈ vm.offer.choices, vm.program.Targets choice.target

theorem LineStep.program (h : LineStep vm done) : done.1.program = vm.program := by
  cases h with
  | jump _ => exact jumpToLabel_program vm.takeJump _
  | label _ _ | dialogue _ _ => rfl
  | @command line body done _ _ ho =>
    generalize (Command.read body).value = command at ho
    cases ho <;> rfl

theorem Chain.program (h : Chain vm chain) : chain.1.program = vm.program := by
  induction h with
  | waits | ends | cut => rfl
  | line _ hs _ ih => exact ih.trans hs.program

theorem step_program (vm : Interpreter) : vm.step.next.program = vm.program := by
  cases hv : vm.suspend with
  | running =>
    cases hs : vm.stepLine? with
    | none => rw [step_of_end hv hs]
    | some done =>
      rw [step_of_line hv hs]
      exact (stepLine?_eq_some.mp hs).program
  | waitingForInput => rw [step_of_waitingForInput hv]
  | waitingForChoice =>
    rcases hp : vm.offer.poll with ⟨_ | label, rest⟩
    · rw [step_of_noPick hv hp]
    · rw [step_of_pick hv hp]
      exact (chain_runChain ..).program.trans (jumpToLabel_program vm.reopen label)

theorem input_program (h : input vm ready given = .ok done) : done.2.program = vm.program := by
  obtain ⟨outcome, next⟩ := done
  cases takes_of_input h <;> rfl

theorem Sourced.jumpToLabel (hs : Sourced vm) (label : String) :
    Sourced (vm.jumpToLabel label).1 := by
  rw [jumpToLabel_landing]
  exact ⟨hs.pending, hs.offered⟩

theorem LineStep.sourced (h : LineStep vm done) (hs : Sourced vm) : Sourced done.1 := by
  cases h with
  | jump _ =>
    have htaken : Sourced vm.takeJump := ⟨fun _ h => (nomatch h), hs.offered⟩
    exact htaken.jumpToLabel _
  | label _ _ | dialogue _ _ => exact ⟨hs.pending, hs.offered⟩
  | @command line body done hr hf ho =>
    have hline : line ∈ vm.program.lines := List.mem_of_getElem? hr.2
    generalize hc : (Command.read body).value = command at ho
    cases ho with
    | choice =>
      refine ⟨hs.pending, fun choice hchoice => ⟨line, hline, body, hf, ?_⟩⟩
      rw [hc]
      exact List.mem_map_of_mem hchoice
    | jump =>
      refine ⟨fun label hlabel => ⟨line, hline, body, hf, ?_⟩, hs.offered⟩
      cases hlabel
      simp [hc, Command.targets]
    | _ => exact ⟨hs.pending, hs.offered⟩

theorem Sourced.load (vm : Interpreter) (program : Program) : Sourced (vm.load program) :=
  ⟨fun _ h => (nomatch h), by simp [Interpreter.load]⟩

theorem Sourced.move (h : Move vm next) (hs : Sourced vm) : Sourced next := by
  cases h with
  | line _ h => exact h.sourced hs
  | closeMenu _ _ =>
    have hopen : Sourced vm.reopen := ⟨hs.pending, by simp [reopen]⟩
    exact hopen.jumpToLabel _
  | poll _ h => exact ⟨hs.pending, by rw [Offer.choices_poll h]; exact hs.offered⟩
  | resume _ => exact ⟨hs.pending, hs.offered⟩
  | hover _ h => exact ⟨hs.pending, by rw [Offer.choices_hover h]; exact hs.offered⟩
  | select _ h => exact ⟨hs.pending, by rw [Offer.choices_select h]; exact hs.offered⟩
  | load => exact .load vm _

end Interpreter

-- ---------------------------------------------------------------------------
-- Reasons to log
-- ---------------------------------------------------------------------------

/-- What running the lines of a program gives reason to log. -/
inductive Program.Explains (program : Program) : LogEvent → Prop
  | malformedCommand : line ∈ program.lines → line.form = .command body →
      error ∈ (Command.read body).errors → Explains program (.malformedCommand line.number error)
  | unknownCommand : line ∈ program.lines → line.form = .command body →
      (Command.read body).value = .unknown name → Explains program (.unknownCommand name)
  | jumpFailed : program.Targets label → program.findLabel label = none →
      Explains program (.jumpFailed (Text.trim label) passed)
  | chainCut : Explains program (.chainCut steps line)

namespace Interpreter

theorem jumpToLabel_explained (vm : Interpreter) (ht : vm.program.Targets label)
    (h : .log event ∈ (vm.jumpToLabel label).2) : vm.program.Explains event := by
  cases hf : vm.program.findLabel label with
  | none =>
    rw [jumpToLabel_eq_of_none hf, List.mem_singleton, Action.log.injEq] at h
    exact h ▸ .jumpFailed ht hf
  | some index => simp [jumpToLabel_eq_of_some hf] at h

theorem LineStep.explained (h : LineStep vm done) (hs : Sourced vm)
    (hlog : .log event ∈ done.2) : vm.program.Explains event := by
  cases h with
  | jump hj => exact jumpToLabel_explained vm.takeJump (hs.pending _ hj) hlog
  | label _ _ | dialogue _ _ => simp at hlog
  | @command line body done hr hf ho =>
    have hline : line ∈ vm.program.lines := List.mem_of_getElem? hr.2
    rcases List.mem_append.mp hlog with hlog | hlog
    · obtain ⟨error, herror, heq⟩ := List.mem_map.mp hlog
      cases heq
      exact .malformedCommand hline hf herror
    · generalize hc : (Command.read body).value = command at ho
      cases ho with
      | unknown =>
        cases List.mem_singleton.mp hlog
        exact .unknownCommand hline hf hc
      | _ => simp at hlog

theorem Chain.explained (h : Chain vm chain) (hs : Sourced vm) (hlog : .log event ∈ chain.2) :
    vm.program.Explains event := by
  induction h with
  | waits | ends => simp at hlog
  | cut =>
    cases List.mem_singleton.mp hlog
    exact .chainCut
  | line _ hline _ ih =>
    rcases List.mem_append.mp hlog with hlog | hlog
    · exact hline.explained hs hlog
    · exact hline.program ▸ ih (hline.sourced hs) hlog

theorem step_explained (hs : Sourced vm) (hlog : .log event ∈ vm.step.actions) :
    vm.program.Explains event := by
  cases hv : vm.suspend with
  | running =>
    cases hstep : vm.stepLine? with
    | none => simp [step_of_end hv hstep] at hlog
    | some done =>
      rw [step_of_line hv hstep] at hlog
      exact (stepLine?_eq_some.mp hstep).explained hs hlog
  | waitingForInput => simp [step_of_waitingForInput hv] at hlog
  | waitingForChoice =>
    rcases hp : vm.offer.poll with ⟨_ | label, rest⟩
    · simp [step_of_noPick hv hp] at hlog
    · obtain ⟨choice, hchoice, rfl⟩ := Offer.mem_of_poll hp
      have hopen : Sourced vm.reopen := ⟨hs.pending, by simp [reopen]⟩
      rw [step_of_pick hv hp] at hlog
      simp only [List.cons_append, List.mem_cons, List.mem_append, reduceCtorEq, false_or] at hlog
      rcases hlog with hlog | hlog
      · exact jumpToLabel_explained vm.reopen (hs.offered choice hchoice) hlog
      · have hprogram := jumpToLabel_program vm.reopen choice.target
        exact hprogram ▸ (chain_runChain ..).explained (hopen.jumpToLabel _) hlog

end Interpreter

end VisualNovel

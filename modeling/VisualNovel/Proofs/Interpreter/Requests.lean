import VisualNovel.Proofs.Interpreter.Reasons

/-!
# Who asks for a picture

Every picture an interpreter asks for stands on a line of its program
(`step_asks`).
-/

namespace VisualNovel

/-- The picture a command is about. -/
def Command.picture? : Command → Option DisplayCommand
  | .background layer path transition => some (.setImage layer path transition)
  | .character layer position path => some (.setCharacter layer position path)
  | .clear layer => some (.clearLayer layer)
  | _ => none

/-- Some line of the program is about the picture. -/
def Program.Asks (program : Program) (picture : DisplayCommand) : Prop :=
  ∃ line ∈ program.lines, ∃ body, line.form = .command body ∧
    (Command.read body).value.picture? = some picture

namespace Interpreter

theorem jumpToLabel_display (vm : Interpreter) (label : String) :
    .display number picture ∉ (vm.jumpToLabel label).2 := by
  cases hf : vm.program.findLabel label with
  | none => simp [jumpToLabel_eq_of_none hf]
  | some index => simp [jumpToLabel_eq_of_some hf]

section
variable {vm : Interpreter} {picture : DisplayCommand}

theorem Obeys.asks (h : Obeys vm line command done) (hd : .display number picture ∈ done.2)
    (hp : picture.layer?.isSome = true) : command.picture? = some picture := by
  cases h with
  | background | character | clear =>
    cases List.mem_singleton.mp hd
    rfl
  | choice =>
    cases List.mem_singleton.mp hd
    cases hp
  | _ => simp at hd

theorem LineStep.asks (h : LineStep vm done) (hd : .display number picture ∈ done.2)
    (hp : picture.layer?.isSome = true) : vm.program.Asks picture := by
  cases h with
  | jump _ => exact absurd hd (jumpToLabel_display vm.takeJump _)
  | label _ _ => cases hd
  | dialogue _ _ =>
    cases List.mem_singleton.mp hd
    cases hp
  | @command line body done hr hf ho =>
    obtain hlog | hd := List.mem_append.mp hd
    · simp at hlog
    · exact ⟨line, List.mem_of_getElem? hr.2, body, hf, ho.asks hd hp⟩

theorem Chain.asks (h : Chain vm chain) (hd : .display number picture ∈ chain.2)
    (hp : picture.layer?.isSome = true) : vm.program.Asks picture := by
  induction h with
  | waits | ends => cases hd
  | cut => simp at hd
  | line _ hs _ ih =>
    obtain hd | hd := List.mem_append.mp hd
    · exact hs.asks hd hp
    · exact hs.program ▸ ih hd

theorem step_asks (hd : .display number picture ∈ vm.step.actions)
    (hp : picture.layer?.isSome = true) : vm.program.Asks picture := by
  cases hv : vm.suspend with
  | running =>
    cases hs : vm.stepLine? with
    | none => simp [step_of_end hv hs] at hd
    | some done =>
      rw [step_of_line hv hs] at hd
      exact (stepLine?_eq_some.mp hs).asks hd hp
  | waitingForInput => simp [step_of_waitingForInput hv] at hd
  | waitingForChoice =>
    rcases hpoll : vm.offer.poll with ⟨_ | label, rest⟩
    · simp [step_of_noPick hv hpoll] at hd
    · rw [step_of_pick hv hpoll] at hd
      simp only [List.cons_append, List.mem_cons, List.mem_append, reduceCtorEq, false_or] at hd
      obtain hd | hd := hd
      · exact absurd hd (jumpToLabel_display vm.reopen label)
      · have hprogram : (vm.reopen.jumpToLabel label).1.program = vm.program :=
          jumpToLabel_program vm.reopen label
        exact hprogram ▸ (chain_runChain ..).asks hd hp

end

end Interpreter

end VisualNovel

import VisualNovel.Proofs.Session.StateInvariant

/-!
# The line just passed

A label that is to be jumped to, or can be picked, is named by the line just
passed: the cursor does not move before the label is used (`Bound.move`).
-/

namespace VisualNovel

namespace Program

/-- The line at the index names the label as a target. -/
def Names (program : Program) (index : Nat) (label : String) : Prop :=
  ∃ body, program.form? index = some (.command body) ∧
    label ∈ (Command.read body).value.targets

/-- The labels that the line at the index names. -/
def targetsAt (program : Program) (index : Nat) : List String :=
  match program.form? index with
  | some (.command body) => (Command.read body).value.targets
  | _ => []

theorem names_iff : Names program index label ↔ label ∈ program.targetsAt index := by
  unfold Names targetsAt
  split
  · rename_i body hf
    simp [hf]
  · rename_i hf
    simpa using fun body hbody => absurd hbody (hf body)

theorem Names.lt_size {program : Program} (h : program.Names index label) :
    index < program.size := by
  obtain ⟨body, hbody, -⟩ := h
  obtain ⟨line, hline, -⟩ := Option.map_eq_some_iff.mp hbody
  exact (List.getElem?_eq_some_iff.mp hline).1

end Program

namespace Interpreter

/-- The line just passed names the label. -/
def JustNamed (vm : Interpreter) (label : String) : Prop :=
  ∃ index, vm.cursor.line = index + 1 ∧ vm.program.Names index label

structure Bound (vm : Interpreter) : Prop where
  coherent : vm.Coherent
  pending : ∀ label, vm.cursor.pendingJump = some label → vm.JustNamed label

theorem Bound.of_noJump (hc : Coherent vm) (hp : vm.cursor.pendingJump = none) : Bound vm := by
  refine ⟨hc, fun label hl => ?_⟩
  rw [hp] at hl
  cases hl

/-- Whatever can be picked the menu's line names. -/
theorem Bound.offered (hb : Bound vm) (hv : vm.suspend = .waitingForChoice)
    (hchoice : choice ∈ vm.offer.choices) : vm.JustNamed choice.target := by
  obtain ⟨-, -, h1, -, body, hf, hb⟩ := hb.coherent.of_waitingForChoice hv
  refine ⟨vm.cursor.line - 1, (Nat.sub_add_cancel h1).symm, body, hf, ?_⟩
  rw [hb]
  exact List.mem_map_of_mem hchoice

theorem LineStep.bound (h : LineStep vm done) (hb : Bound vm) (hv : vm.suspend = .running) :
    Bound done.1 := by
  have hc := h.coherent hb.coherent hv
  cases h with
  | jump _ => exact .of_noJump hc (jumpToLabel_pendingJump vm.takeJump _)
  | label hr _ | dialogue hr _ => exact .of_noJump hc hr.1
  | @command line body done hr hf ho =>
    generalize hread : (Command.read body).value = command at ho
    cases ho with
    | jump =>
      refine ⟨hc, fun label hl => ⟨vm.cursor.line, rfl, body, ?_, ?_⟩⟩
      · simp [passLine, Program.form?, hr.2, hf]
      · cases hl
        simp [hread, Command.targets]
    | _ => exact .of_noJump hc hr.1

/-- A pick made, wherever its label leads. -/
theorem Bound.picked (hb : Bound vm) (hv : vm.suspend = .waitingForChoice) (label : String) :
    Bound (vm.reopen.jumpToLabel label).1 := by
  obtain ⟨hl, -, -, hp, -⟩ := hb.coherent.of_waitingForChoice hv
  refine .of_noJump (coherent_jumpToLabel vm.reopen rfl hl rfl label) ?_
  exact (jumpToLabel_pendingJump vm.reopen label).trans hp

theorem Bound.move (h : Move vm next) (hb : Bound vm) : Bound next := by
  have hc := hb.coherent.move h
  cases h with
  | line hv h => exact h.bound hb hv
  | closeMenu hv _ => exact hb.picked hv _
  | poll _ _ | resume _ | hover _ _ | select _ _ => exact ⟨hc, hb.pending⟩
  | load => exact .of_noJump hc rfl

theorem Bound.load (vm : Interpreter) (program : Program) : Bound (vm.load program) :=
  .of_noJump (.running rfl (Nat.zero_le _) rfl) rfl

end Interpreter

end VisualNovel

import Mathlib.Logic.Relation
import VisualNovel.Proofs.Interpreter.LineRules

/-!
# Moves

A step or an input is a sequence of moves: a line run, a menu closed, a pick or
a click taken in. What every move keeps, every step and every input keeps
(`step_moves`, `input_moves`); nothing has to be said about the chain of lines
behind a pick again.
-/

namespace VisualNovel

namespace Interpreter

theorem LineStep.options (h : LineStep vm done) : done.1.options = vm.options := by
  cases h with
  | jump _ => exact jumpToLabel_options vm.takeJump _
  | label _ _ | dialogue _ _ => rfl
  | @command line body done _ _ ho =>
    generalize (Command.read body).value = command at ho
    cases ho <;> rfl

-- ---------------------------------------------------------------------------
-- What a step is
-- ---------------------------------------------------------------------------

section
variable {vm : Interpreter}

theorem step_of_line (hv : vm.suspend = .running) (h : vm.stepLine? = some done) :
    vm.step = { running := true, next := done.1, actions := done.2 } := by
  simp [step, hv, h]

theorem step_of_end (hv : vm.suspend = .running) (h : vm.stepLine? = none) :
    vm.step = { running := false, next := vm } := by
  simp [step, hv, h]

theorem step_of_waitingForInput (hv : vm.suspend = .waitingForInput) :
    vm.step = { running := true, next := vm } := by
  simp [step, hv]

theorem step_of_noPick (hv : vm.suspend = .waitingForChoice) (h : vm.offer.poll = (none, rest)) :
    vm.step = { running := true, next := { vm with offer := rest } } := by
  simp [step, hv, h]

theorem step_of_pick (hv : vm.suspend = .waitingForChoice)
    (h : vm.offer.poll = (some label, rest)) :
    vm.step =
      let jump := vm.reopen.jumpToLabel label
      let chain := jump.1.runChain jump.1.options.maxChainSteps
      { running := true, next := chain.1, actions := .closeMenu :: jump.2 ++ chain.2 } := by
  simp [step, hv, h, resolveChoice, reopen]

-- ---------------------------------------------------------------------------
-- What an input is
-- ---------------------------------------------------------------------------

theorem input_click (hv : vm.suspend = .waitingForInput) :
    vm.input ready .click =
      .ok (if ready then (.resumed, { vm with suspend := .running })
        else (.revealCompleted, vm)) := by
  cases ready <;> simp [input, hv]

theorem input_click_ignored (hv : vm.suspend ≠ .waitingForInput) :
    vm.input ready .click = .ok (.ignored, vm) := by
  unfold input
  split <;> simp_all

theorem input_hover (hv : vm.suspend = .waitingForChoice) :
    vm.input ready (.hover index) =
      (vm.offer.hover index).map fun pointed => (.hovered, { vm with offer := pointed }) := by
  simp [input, hv]

theorem input_hover_ignored (hv : vm.suspend ≠ .waitingForChoice) :
    vm.input ready (.hover index) = .ok (.ignored, vm) := by
  unfold input
  split <;> simp_all

theorem input_select (hv : vm.suspend = .waitingForChoice) :
    vm.input ready (.select index) =
      (vm.offer.select index).map fun picked =>
        (.selectionRecorded, { vm with offer := picked }) := by
  simp [input, hv]

theorem input_select_refused (hv : vm.suspend ≠ .waitingForChoice) :
    vm.input ready (.select index) =
      .error (.stateMismatch Suspend.waitingForChoice.name vm.suspend.name) := by
  unfold input
  split <;> simp_all

end

/-- What taking an input comes to, if it is not refused. -/
inductive Takes (vm : Interpreter) (ready : Bool) :
    Input → InputOutcome → Interpreter → Prop
  | resume : vm.suspend = .waitingForInput → ready = true →
      Takes vm ready .click .resumed { vm with suspend := .running }
  | reveal : vm.suspend = .waitingForInput → ready = false →
      Takes vm ready .click .revealCompleted vm
  | hover : vm.suspend = .waitingForChoice → vm.offer.hover index = .ok pointed →
      Takes vm ready (.hover index) .hovered { vm with offer := pointed }
  | select : vm.suspend = .waitingForChoice → vm.offer.select index = .ok picked →
      Takes vm ready (.select index) .selectionRecorded { vm with offer := picked }
  | ignored : Takes vm ready given .ignored vm

theorem takes_of_input (h : input vm ready given = .ok (outcome, next)) :
    Takes vm ready given outcome next := by
  cases given with
  | click =>
    by_cases hv : vm.suspend = .waitingForInput
    · rw [input_click hv] at h
      cases hr : ready <;> rw [hr] at h <;> cases h
      · exact .reveal hv rfl
      · exact .resume hv rfl
    · cases (input_click_ignored hv).symm.trans h
      exact .ignored
  | hover index =>
    by_cases hv : vm.suspend = .waitingForChoice
    · rw [input_hover hv] at h
      cases ho : vm.offer.hover index <;> rw [ho] at h <;> cases h
      exact .hover hv ho
    · cases (input_hover_ignored hv).symm.trans h
      exact .ignored
  | select index =>
    by_cases hv : vm.suspend = .waitingForChoice
    · rw [input_select hv] at h
      cases ho : vm.offer.select index <;> rw [ho] at h <;> cases h
      exact .select hv ho
    · cases (input_select_refused hv).symm.trans h

-- ---------------------------------------------------------------------------
-- Moves
-- ---------------------------------------------------------------------------

/-- One of the ways an interpreter changes. -/
inductive Move : Interpreter → Interpreter → Prop
  | line : vm.suspend = .running → LineStep vm done → Move vm done.1
  | closeMenu : vm.suspend = .waitingForChoice → vm.offer.poll = (some label, rest) →
      Move vm (vm.reopen.jumpToLabel label).1
  | poll : vm.suspend = .waitingForChoice → vm.offer.poll = (none, rest) →
      Move vm { vm with offer := rest }
  | resume : vm.suspend = .waitingForInput → Move vm { vm with suspend := .running }
  | hover : vm.suspend = .waitingForChoice → vm.offer.hover index = .ok pointed →
      Move vm { vm with offer := pointed }
  | select : vm.suspend = .waitingForChoice → vm.offer.select index = .ok picked →
      Move vm { vm with offer := picked }
  | load : Move vm (vm.load new)

theorem Move.options (h : Move vm next) : next.options = vm.options := by
  cases h with
  | line _ hs => exact hs.options
  | closeMenu _ _ => exact jumpToLabel_options vm.reopen _
  | poll _ _ | resume _ | hover _ _ | select _ _ | load => rfl

abbrev Moves : Interpreter → Interpreter → Prop := Relation.ReflTransGen Move

theorem Moves.preserve {P : Interpreter → Prop} (h : ∀ {vm next}, Move vm next → P vm → P next)
    (moves : Moves vm last) (hvm : P vm) : P last := by
  induction moves with
  | refl => exact hvm
  | tail _ move ih => exact h move ih

/-- Lines run one after another, and where that stops. -/
inductive Chain : Interpreter → Interpreter × List Action → Prop
  | waits : vm.suspend ≠ .running → Chain vm (vm, [])
  | ends : vm.suspend = .running → vm.stepLine? = none → Chain vm (vm, [])
  | cut : vm.suspend = .running →
      Chain vm (vm, [.log (.chainCut vm.options.maxChainSteps vm.cursor.line)])
  | line : vm.suspend = .running → LineStep vm done → Chain done.1 chain →
      Chain vm (chain.1, done.2 ++ chain.2)

theorem chain_runChain (fuel : Nat) (vm : Interpreter) : Chain vm (vm.runChain fuel) := by
  induction fuel generalizing vm with
  | zero =>
    unfold runChain
    split
    · exact .cut ‹_›
    · exact .waits ‹_›
  | succ fuel ih =>
    unfold runChain
    split
    · rename_i hv
      cases hs : vm.stepLine? with
      | none => exact .ends hv hs
      | some done => exact .line hv (stepLine?_eq_some.mp hs) (ih done.1)
    · exact .waits ‹_›

theorem Chain.moves (h : Chain vm chain) : Moves vm chain.1 := by
  induction h with
  | waits | ends | cut => exact .refl
  | line hv hs _ ih => exact .head (.line hv hs) ih

theorem step_moves (vm : Interpreter) : Moves vm vm.step.next := by
  cases hv : vm.suspend with
  | running =>
    cases hs : vm.stepLine? with
    | none => exact step_of_end hv hs ▸ .refl
    | some done => exact step_of_line hv hs ▸ .single (.line hv (stepLine?_eq_some.mp hs))
  | waitingForInput => exact step_of_waitingForInput hv ▸ .refl
  | waitingForChoice =>
    rcases hp : vm.offer.poll with ⟨_ | label, rest⟩
    · exact step_of_noPick hv hp ▸ .single (.poll hv hp)
    · exact step_of_pick hv hp ▸ .head (.closeMenu hv hp) (chain_runChain ..).moves

theorem input_moves (h : input vm ready given = .ok (outcome, next)) : Moves vm next := by
  cases takes_of_input h with
  | resume hv _ => exact .single (.resume hv)
  | hover hv ho => exact .single (.hover hv ho)
  | select hv ho => exact .single (.select hv ho)
  | reveal _ _ | ignored => exact .refl

end Interpreter

end VisualNovel

import VisualNovel.Proofs.Interpreter.Plan
import VisualNovel.Proofs.Script.MarkerLaws

/-!
# The rules of one line

What a running interpreter does next, rule by rule: `LineStep` has a rule for a
pending jump and one for each form of a line, `Obeys` one for each command and
each way it can go. `stepLine?_eq_some`: the rules are exactly the steps the
interpreter takes, with what it asks for.
-/

namespace VisualNovel

/-- Behind the first definition of the label, or nowhere. -/
def Program.landing (program : Program) (label : String) (passed : Nat) : Nat :=
  ((program.findLabel label).map (· + 1)).getD passed

namespace Interpreter

-- ---------------------------------------------------------------------------
-- Jumps
-- ---------------------------------------------------------------------------

section
variable {vm : Interpreter}

theorem jumpToLabel_eq_of_some (h : vm.program.findLabel label = some index) :
    vm.jumpToLabel label = ({ vm with cursor := vm.cursor.jumpTo (index + 1) }, []) := by
  simp [jumpToLabel, h]

theorem jumpToLabel_eq_of_none (h : vm.program.findLabel label = none) :
    vm.jumpToLabel label = (vm, [.log (.jumpFailed (Text.trim label) vm.cursor.line)]) := by
  simp [jumpToLabel, h]

end

section
variable (vm : Interpreter) (label : String)

/-- A jump moves the cursor, if it does anything. -/
theorem jumpToLabel_landing :
    (vm.jumpToLabel label).1 =
      { vm with cursor := vm.cursor.jumpTo (vm.program.landing label vm.cursor.line) } := by
  cases h : vm.program.findLabel label with
  | some index => rw [jumpToLabel_eq_of_some h, Program.landing, h]; rfl
  | none => rw [jumpToLabel_eq_of_none h, Program.landing, h]; rfl

theorem jumpToLabel_program : (vm.jumpToLabel label).1.program = vm.program := by
  rw [jumpToLabel_landing]

theorem jumpToLabel_suspend : (vm.jumpToLabel label).1.suspend = vm.suspend := by
  rw [jumpToLabel_landing]

theorem jumpToLabel_options : (vm.jumpToLabel label).1.options = vm.options := by
  rw [jumpToLabel_landing]

theorem jumpToLabel_pendingJump :
    (vm.jumpToLabel label).1.cursor.pendingJump = vm.cursor.pendingJump := by
  rw [jumpToLabel_landing, Cursor.jumpTo]

theorem jumpToLabel_branches :
    (vm.jumpToLabel label).1.cursor.branches = vm.cursor.branches := by
  rw [jumpToLabel_landing, Cursor.jumpTo]

end

-- ---------------------------------------------------------------------------
-- Commands
-- ---------------------------------------------------------------------------

/-- A command executed and followed, without the faults found in reading it. -/
def obey (vm : Interpreter) (line : Nat) (command : Command) : Interpreter × List Action :=
  let done := command.execute vm.options.branchScan vm.program vm.cursor vm.affection
  { vm with cursor := done.cursor, affection := done.affection }.follow line done.effect

theorem runCommand_eq (vm : Interpreter) (line : Nat) (body : String) :
    vm.runCommand line body =
      let done := vm.obey line (Command.read body).value
      (done.1, (Command.read body).errors.map (.log <| .malformedCommand line ·) ++ done.2) :=
  rfl

/-- Replaces the stack of branches and goes to a line. -/
def branchTo (vm : Interpreter) (line : Nat) (branches : List Bool) : Interpreter :=
  { vm with cursor := { vm.cursor with line, branches } }

/-- The line is the number reported for the command; the cursor is behind it. -/
inductive Obeys (vm : Interpreter) (line : Nat) : Command → Interpreter × List Action → Prop
  | background : vm.Obeys line (.background layer path transition)
      (vm, [.display line (.setImage layer path transition)])
  | character : vm.Obeys line (.character layer position path)
      (vm, [.display line (.setCharacter layer position path)])
  | clear : vm.Obeys line (.clear layer) (vm, [.display line (.clearLayer layer)])
  | noChoice : vm.Obeys line (.choice []) (vm, [])
  | choice : vm.Obeys line (.choice (choice :: choices))
      ({ vm with offer := .ofChoices (choice :: choices), suspend := .waitingForChoice },
        [.display line (.presentChoices (choice :: choices))])
  | affection : vm.Obeys line (.affection who delta)
      ({ vm with affection := vm.affection.change who delta },
        [.wrote who ((vm.affection.change who delta).get who)])
  | ifHolds : condition.holds vm.affection = true → vm.Obeys line (.ifHolds condition)
      (vm.branchTo vm.cursor.line (true :: vm.cursor.branches), [])
  | ifFails : condition.holds vm.affection = false → vm.Obeys line (.ifHolds condition)
      (vm.branchTo (vm.options.branchScan.nextBranch vm.program vm.cursor.line)
        (false :: vm.cursor.branches), [])
  | elseIfHolds : vm.cursor.branches = false :: outer → condition.holds vm.affection = true →
      vm.Obeys line (.elseIf condition) (vm.branchTo vm.cursor.line (true :: outer), [])
  | elseIfFails : vm.cursor.branches = false :: outer → condition.holds vm.affection = false →
      vm.Obeys line (.elseIf condition)
        (vm.branchTo (vm.options.branchScan.nextBranch vm.program vm.cursor.line)
          (false :: outer), [])
  | elseIfDone : vm.cursor.top? ≠ some false → vm.Obeys line (.elseIf condition)
      (vm.branchTo (vm.options.branchScan.blockEnd vm.program vm.cursor.line)
        vm.cursor.branches, [])
  | otherwise : vm.cursor.branches = false :: outer → vm.Obeys line .otherwise
      (vm.branchTo vm.cursor.line (true :: outer), [])
  | otherwiseDone : vm.cursor.top? ≠ some false → vm.Obeys line .otherwise
      (vm.branchTo (vm.options.branchScan.blockEnd vm.program vm.cursor.line)
        vm.cursor.branches, [])
  | endIf : vm.Obeys line .endIf (vm.branchTo vm.cursor.line vm.cursor.branches.tail, [])
  | jump : vm.Obeys line (.jump label)
      ({ vm with cursor := { vm.cursor with pendingJump := some label } }, [])
  | unknown : vm.Obeys line (.unknown name) (vm, [.log (.unknownCommand name)])
  | invalid : vm.Obeys line (.invalid name) (vm, [])

theorem top?_eq_some {cursor : Cursor} :
    cursor.top? = some taken ↔ ∃ outer, cursor.branches = taken :: outer := by
  simp [Cursor.top?, List.head?_eq_some_iff]

theorem Obeys.obey (h : Obeys vm line command done) : vm.obey line command = done := by
  cases h with
  | elseIfHolds ht hc | elseIfFails ht hc =>
    simp [Interpreter.obey, Command.execute, follow, branchTo, Cursor.top?, Cursor.setTop,
      Cursor.jumpTo, ht, hc]
  | otherwise ht =>
    simp [Interpreter.obey, Command.execute, follow, branchTo, Cursor.top?, Cursor.setTop, ht]
  | _ => simp_all [Interpreter.obey, Command.execute, follow, branchTo, Cursor.push,
      Cursor.pop, Cursor.jumpTo]

theorem obeys_obey (vm : Interpreter) (line : Nat) (command : Command) :
    vm.Obeys line command (vm.obey line command) := by
  -- Each command goes some way by a rule, and that rule gives what `obey` does.
  have h : ∃ done, vm.Obeys line command done := by
    cases command with
    | background | character | clear | affection | endIf | jump | unknown | invalid =>
      exact ⟨_, by constructor⟩
    | choice options =>
      cases options
      · exact ⟨_, .noChoice⟩
      · exact ⟨_, .choice⟩
    | ifHolds condition =>
      cases hc : condition.holds vm.affection
      · exact ⟨_, .ifFails hc⟩
      · exact ⟨_, .ifHolds hc⟩
    | elseIf condition =>
      by_cases ht : vm.cursor.top? = some false
      · obtain ⟨outer, ht⟩ := top?_eq_some.mp ht
        cases hc : condition.holds vm.affection
        · exact ⟨_, .elseIfFails ht hc⟩
        · exact ⟨_, .elseIfHolds ht hc⟩
      · exact ⟨_, .elseIfDone ht⟩
    | otherwise =>
      by_cases ht : vm.cursor.top? = some false
      · obtain ⟨outer, ht⟩ := top?_eq_some.mp ht
        exact ⟨_, .otherwise ht⟩
      · exact ⟨_, .otherwiseDone ht⟩
  obtain ⟨done, h⟩ := h
  exact h.obey ▸ h

-- ---------------------------------------------------------------------------
-- Lines
-- ---------------------------------------------------------------------------

/-- The line is the next one to be run. -/
def Reads (vm : Interpreter) (line : ScriptLine) : Prop :=
  vm.cursor.pendingJump = none ∧ vm.program.lines[vm.cursor.line]? = some line

inductive LineStep (vm : Interpreter) : Interpreter × List Action → Prop
  | jump : vm.cursor.pendingJump = some label → vm.LineStep (vm.takeJump.jumpToLabel label)
  | label : vm.Reads line → line.form = .label name → vm.LineStep (vm.passLine, [])
  | dialogue : vm.Reads line → line.form = .dialogue text →
      vm.LineStep ({ vm.passLine with currentText := some text, suspend := .waitingForInput },
        [.display line.number (.showText text)])
  | command : vm.Reads line → line.form = .command body →
      vm.passLine.Obeys line.number (Command.read body).value done →
      vm.LineStep (done.1, (Command.read body).errors.map
        (.log <| .malformedCommand line.number ·) ++ done.2)

theorem Reads.lt (h : Reads vm line) : vm.cursor.line < vm.program.size :=
  (List.getElem?_eq_some_iff.mp h.2).1

theorem Reads.stepLine? (h : Reads vm line) :
    vm.stepLine? = some (vm.passLine.runLine line.number line.form) := by
  simp [Interpreter.stepLine?, Program.form?, Program.lineNumber, Program.sourceLine?, passLine,
    h.1, h.2]

theorem stepLine?_eq_none :
    stepLine? vm = none ↔ vm.cursor.pendingJump = none ∧ vm.program.size ≤ vm.cursor.line := by
  unfold stepLine?
  cases vm.cursor.pendingJump with
  | some _ => simp
  | none =>
    cases h : vm.program.lines[vm.cursor.line]? with
    | none => simpa [Program.form?, Program.size, h] using List.getElem?_eq_none_iff.mp h
    | some line => simpa [Program.form?, Program.size, h] using (List.getElem?_eq_some_iff.mp h).1

theorem LineStep.stepLine? (h : LineStep vm done) : vm.stepLine? = some done := by
  cases h with
  | jump hj => simp [Interpreter.stepLine?, hj, takeJump]
  | label hr hf | dialogue hr hf => rw [hr.stepLine?, hf]; rfl
  | command hr hf ho => rw [hr.stepLine?, hf, runLine, runCommand_eq, ho.obey]

theorem lineStep_of_stepLine? (h : stepLine? vm = some done) : LineStep vm done := by
  cases hj : vm.cursor.pendingJump with
  | some label =>
    have hs : LineStep vm _ := .jump hj
    cases h.symm.trans hs.stepLine?
    exact hs
  | none =>
    cases hl : vm.program.lines[vm.cursor.line]? with
    | none => simp [stepLine?, Program.form?, hj, hl] at h
    | some line =>
      have hr : Reads vm line := ⟨hj, hl⟩
      cases hf : line.form with
      | label name =>
        have hs : LineStep vm _ := .label hr hf
        cases h.symm.trans hs.stepLine?
        exact hs
      | dialogue text =>
        have hs : LineStep vm _ := .dialogue hr hf
        cases h.symm.trans hs.stepLine?
        exact hs
      | command body =>
        have hs : LineStep vm _ := .command hr hf (obeys_obey ..)
        cases h.symm.trans hs.stepLine?
        exact hs

theorem stepLine?_eq_some : stepLine? vm = some done ↔ LineStep vm done :=
  ⟨lineStep_of_stepLine?, LineStep.stepLine?⟩

end Interpreter

end VisualNovel

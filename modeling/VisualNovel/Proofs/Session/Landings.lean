import VisualNovel.Display.Recording
import VisualNovel.Proofs.Diagnostic.Duplicates
import VisualNovel.Proofs.Interpreter.LabelJumps
import VisualNovel.Proofs.Session.JustPassed

/-!
# Where jumps land

The index of the labels, the analysis and every jump of a history agree on the first
definition of a label (`Session.labels_agree`).
-/

namespace VisualNovel

namespace Interpreter

/-- A jump from behind a line that names the label: to behind its first definition, or
nowhere. Nothing else changes, but that no jump is pending. -/
structure Lands (vm : Interpreter) (label : String) (landed : Interpreter) : Prop where
  named : vm.JustNamed label
  landed_eq : landed = { vm with
    cursor := {
      line := vm.program.landing label vm.cursor.line
      pendingJump := none
      branches := vm.cursor.branches } }

/-- A pick. -/
theorem Bound.pick_lands (hb : Bound vm) (hv : vm.suspend = .waitingForChoice)
    (hchoice : choice ∈ vm.offer.choices) :
    vm.reopen.Lands choice.target (vm.reopen.jumpToLabel choice.target).1 := by
  obtain ⟨-, -, -, hjump, -⟩ := hb.coherent.of_waitingForChoice hv
  refine ⟨hb.offered hv hchoice, ?_⟩
  rw [jumpToLabel_landing, ← hjump]
  rfl

end Interpreter

namespace Session

/-- The session so many lines on, if it runs so many. A jump made counts as a line. -/
def linesOn (sink : DisplaySink σ) (session : Session σ) : Nat → Option (Session σ)
  | 0 => some session
  | lines + 1 =>
    if session.vm.suspend = .running then
      match session.stepLine? sink with
      | none => none
      | some stretch => stretch.next.linesOn sink lines
    else none

section
variable {sink : DisplaySink σ} {session : Session σ}

theorem exists_of_stepLine?_eq_some (h : session.stepLine? sink = some stretch) :
    ∃ done, session.vm.LineStep done ∧ stretch.next.vm = done.1 := by
  rw [stepLine?_eq_carryOut, Option.map_eq_some_iff] at h
  obtain ⟨done, hline, rfl⟩ := h
  exact ⟨done, Interpreter.stepLine?_eq_some.mp hline, rfl⟩

/-- A pending jump, whether a step begins with it or a chain comes to it. -/
theorem stepLine?_lands (sink : DisplaySink σ) (hb : session.vm.Bound)
    (hj : session.vm.cursor.pendingJump = some label) :
    ∃ stretch, session.stepLine? sink = some stretch ∧
      session.vm.Lands label stretch.next.vm := by
  refine ⟨_, by rw [stepLine?_eq_carryOut, (Interpreter.LineStep.jump hj).stepLine?]; rfl, ?_⟩
  exact ⟨hb.pending label hj, Interpreter.jumpToLabel_landing ..⟩

theorem step_lands (sink : DisplaySink σ) (hb : session.vm.Bound)
    (hv : session.vm.suspend = .running) (hj : session.vm.cursor.pendingJump = some label) :
    (session.step sink).running = true ∧ session.vm.Lands label (session.step sink).next.vm := by
  obtain ⟨stretch, hstep, hlands⟩ := stepLine?_lands sink hb hj
  simp only [step, hv, hstep]
  exact ⟨trivial, hlands⟩

theorem linesOn_moves (h : session.linesOn sink lines = some last) :
    Interpreter.Moves session.vm last.vm := by
  induction lines generalizing session with
  | zero =>
    cases h
    exact .refl
  | succ lines ih =>
    by_cases hv : session.vm.suspend = .running
    · cases hs : session.stepLine? sink with
      | none => simp [linesOn, hv, hs] at h
      | some stretch =>
        obtain ⟨done, hline, hvm⟩ := exists_of_stepLine?_eq_some hs
        have hrest : stretch.next.linesOn sink lines = some last := by
          simpa [linesOn, hv, hs] using h
        exact .head (hvm ▸ .line hv hline) (ih hrest)
    · simp [linesOn, hv] at h

end

/-- The first definition of a label, as looked up, as noted in one pass over the lines, as
reported and as jumped to. A label is found at the first line that defines it, or nowhere if
there is none; the report has a warning for every line that defines a label again, which
says where the first one is; and after any history a jump that is due, picked or come to
behind a pick goes behind that line, from behind one that names the label. -/
theorem labels_agree (program : Program) (script : String) (sink : DisplaySink σ)
    (options : Options) (display : σ) (ops : List Operation) :
    let session := (start options display).after sink ops
    let vm := session.vm
    let turn := session.step sink
    (∀ name index, program.findLabel name = some index ↔
        program.FirstDefines index (Text.trim name)) ∧
      (∀ name, program.findLabel name = none ↔
        ∀ index, ¬ program.Defines index (Text.trim name)) ∧
      (∀ name, program.findLabel name = program.labelIndex.lookup (Text.trim name)) ∧
      (program.analyze script).duplicates =
        (List.range program.size).filterMap (program.duplicate? script) ∧
      (∀ label, vm.suspend = .running → vm.cursor.pendingJump = some label →
        turn.running = true ∧ vm.Lands label turn.next.vm) ∧
      ∀ picked, vm.suspend = .waitingForChoice → vm.offer.selected = some picked →
        ∃ choice landed, vm.offer.choices[picked]? = some choice ∧
          vm.reopen.Lands choice.target landed ∧
          let behind : Session σ := ⟨landed, (sink.execute session.display .hideChoices).display⟩
          turn.next = (behind.runChain sink vm.options.maxChainSteps).next ∧
          ∀ lines later label, behind.linesOn sink lines = some later →
            later.vm.suspend = .running → later.vm.cursor.pendingJump = some label →
              ∃ stretch, later.stepLine? sink = some stretch ∧
                later.vm.Lands label stretch.next.vm := by
  intro session vm turn
  have hstart : (start options display).vm.Bound :=
    .of_noJump (.running rfl (Nat.zero_le _) rfl) rfl
  have hbound : vm.Bound := after_preserve sink _ Interpreter.Bound.move hstart ops
  refine ⟨fun _ _ => Program.findLabel_eq_some_iff, fun _ => Program.findLabel_eq_none_iff,
    program.findLabel_eq_lookup, duplicates_analyze program script,
    fun label => step_lands sink hbound, fun picked hv hpicked => ?_⟩
  obtain ⟨-, hopen, -⟩ := hbound.coherent.of_waitingForChoice hv
  obtain ⟨choice, rest, hchoice, hpoll⟩ := hopen.poll_some hpicked
  have hmem : choice ∈ vm.offer.choices := List.mem_of_getElem? hchoice
  let landed := (vm.reopen.jumpToLabel choice.target).1
  have hlimit : landed.options = vm.options := Interpreter.jumpToLabel_options vm.reopen _
  refine ⟨choice, landed, hchoice, hbound.pick_lands hv hmem, ?_, ?_⟩
  · rw [← hlimit]
    exact step_of_pick sink session hv hpoll
  · intro lines later label hlines _ hjump
    have hlater : later.vm.Bound :=
      (linesOn_moves hlines).preserve Interpreter.Bound.move (hbound.picked hv _)
    exact stepLine?_lands sink hlater hjump

/-- A jump to a label that is defined twice. -/
theorem labels_agree_twoEnds :
    let program := Program.parse "@jump end\n:end\n:end"
    let ops : List Operation := [.load program, .step]
    let session := (start {} ({} : RecordingDisplay)).after RecordingDisplay.sink ops
    let turn := session.step RecordingDisplay.sink
    session.vm.suspend = .running ∧ session.vm.cursor.pendingJump = some "end" ∧
      session.vm.Lands "end" turn.next.vm ∧ turn.next.vm.cursor.line = 2 := by
  intro program ops
  have hrunning : ((start {} ({} : RecordingDisplay)).after RecordingDisplay.sink
      ops).vm.suspend = .running := by decide +kernel
  have hpending : ((start {} ({} : RecordingDisplay)).after RecordingDisplay.sink
      ops).vm.cursor.pendingJump = some "end" := by decide +kernel
  obtain ⟨-, -, -, -, hjump, -⟩ := labels_agree program "" RecordingDisplay.sink {} {} ops
  exact ⟨hrunning, hpending, (hjump "end" hrunning hpending).2, by decide +kernel⟩

end Session

end VisualNovel

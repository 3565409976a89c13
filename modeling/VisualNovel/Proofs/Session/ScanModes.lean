import VisualNovel.Display.Recording
import VisualNovel.Proofs.Script.FlatBlocks
import VisualNovel.Proofs.Session.History

/-!
# Either way of scanning

Interpreters that differ in nothing but the way they scan run a flat program
alike, line by line, wherever they stand in it and whatever is on their stacks of
branches (`LineStep.withScan`). So no display and no host can tell them apart
(`Session.flat_same_for_scans`).
-/

namespace VisualNovel

namespace Interpreter

/-- The interpreter with another way of scanning. -/
def withScan (vm : Interpreter) (scan : BranchScan) : Interpreter :=
  { vm with options := { vm.options with branchScan := scan } }

/-- Behind every line that begins a branch all scans agree. -/
def ScansAgree (program : Program) : Prop :=
  ∀ index marker, program.marker? index = some marker → marker ≠ .endIf →
    ∀ scan other : BranchScan,
      scan.nextBranch program (index + 1) = other.nextBranch program (index + 1) ∧
        scan.blockEnd program (index + 1) = other.blockEnd program (index + 1)

theorem scansAgree_of_flat {program : Program} (hb : program.Balanced) (hf : program.Flat) :
    ScansAgree program := by
  intro index marker hm hend scan other
  exact ⟨hf.find_eq hb hm hend rfl rfl scan other, hf.find_eq hb hm hend rfl rfl scan other⟩

-- ---------------------------------------------------------------------------
-- One line
-- ---------------------------------------------------------------------------

section
variable {vm : Interpreter} (scan : BranchScan)

theorem jumpToLabel_withScan (vm : Interpreter) (label : String) :
    (vm.withScan scan).jumpToLabel label =
      ((vm.jumpToLabel label).1.withScan scan, (vm.jumpToLabel label).2) := by
  cases hf : vm.program.findLabel label with
  | none => rw [jumpToLabel_eq_of_none hf]; exact jumpToLabel_eq_of_none hf
  | some index => rw [jumpToLabel_eq_of_some hf]; exact jumpToLabel_eq_of_some hf

/-- The command is a marker that begins a branch only if scans agree at the cursor. -/
theorem Obeys.withScan (h : Obeys vm line command done)
    (hagree : ∀ marker, command.marker? = some marker → marker ≠ .endIf →
      vm.options.branchScan.nextBranch vm.program vm.cursor.line =
          scan.nextBranch vm.program vm.cursor.line ∧
        vm.options.branchScan.blockEnd vm.program vm.cursor.line =
          scan.blockEnd vm.program vm.cursor.line) :
    Obeys (vm.withScan scan) line command (done.1.withScan scan, done.2) := by
  cases h with
  | ifHolds hc => exact .ifHolds hc
  | ifFails hc =>
    rw [(hagree .ifHolds rfl (by decide)).1]
    exact .ifFails hc
  | elseIfHolds ht hc => exact .elseIfHolds ht hc
  | elseIfFails ht hc =>
    rw [(hagree .elseIf rfl (by decide)).1]
    exact .elseIfFails ht hc
  | elseIfDone ht =>
    rw [(hagree .elseIf rfl (by decide)).2]
    exact .elseIfDone ht
  | otherwise ht => exact .otherwise ht
  | otherwiseDone ht =>
    rw [(hagree .otherwise rfl (by decide)).2]
    exact .otherwiseDone ht
  | endIf => exact .endIf
  | _ => constructor

theorem LineStep.withScan (h : LineStep vm done) (hagree : ScansAgree vm.program) :
    LineStep (vm.withScan scan) (done.1.withScan scan, done.2) := by
  cases h with
  | jump hj => exact jumpToLabel_withScan scan vm.takeJump _ ▸ .jump hj
  | label hr hf =>
    have hr' : Reads (vm.withScan scan) _ := hr
    exact .label hr' hf
  | dialogue hr hf =>
    have hr' : Reads (vm.withScan scan) _ := hr
    exact .dialogue hr' hf
  | @command line body done hr hf ho =>
    have hr' : Reads (vm.withScan scan) line := hr
    refine .command hr' hf (ho.withScan scan fun marker hm hend => ?_)
    -- The cursor is behind the line of the command.
    have hmarker : vm.program.marker? vm.cursor.line = some marker := by
      rwa [Program.marker?_of_line hr.2, Marker.ofLine?_of_body hf]
    exact hagree vm.cursor.line marker hmarker hend _ _

theorem stepLine?_withScan (hagree : ScansAgree vm.program) :
    (vm.withScan scan).stepLine? =
      vm.stepLine?.map fun done => (done.1.withScan scan, done.2) := by
  cases hs : vm.stepLine? with
  | none =>
    have hend := stepLine?_eq_none.mp hs
    exact stepLine?_eq_none.mpr hend
  | some done => exact ((stepLine?_eq_some.mp hs).withScan scan hagree).stepLine?

-- ---------------------------------------------------------------------------
-- Steps and inputs
-- ---------------------------------------------------------------------------

theorem runChain_withScan (hagree : ScansAgree vm.program) (fuel : Nat) :
    (vm.withScan scan).runChain fuel =
      ((vm.runChain fuel).1.withScan scan, (vm.runChain fuel).2) := by
  induction fuel generalizing vm with
  | zero =>
    unfold runChain
    rw [show (vm.withScan scan).suspend = vm.suspend from rfl]
    split <;> rfl
  | succ fuel ih =>
    unfold runChain
    rw [show (vm.withScan scan).suspend = vm.suspend from rfl, stepLine?_withScan scan hagree]
    split
    · cases hs : vm.stepLine? with
      | none => rfl
      | some done =>
        have hprogram : done.1.program = vm.program := (stepLine?_eq_some.mp hs).program
        have hmore := ih (hprogram ▸ hagree : ScansAgree done.1.program)
        simp only [Option.map_some, hmore]
    · rfl

theorem step_withScan (hagree : ScansAgree vm.program) :
    (vm.withScan scan).step = { vm.step with next := vm.step.next.withScan scan } := by
  cases hv : vm.suspend with
  | running =>
    have hv' : (vm.withScan scan).suspend = .running := hv
    have hs := stepLine?_withScan scan hagree
    cases h : vm.stepLine? with
    | none =>
      rw [h] at hs
      rw [step_of_end hv h, step_of_end hv' hs]
    | some done =>
      rw [h] at hs
      rw [step_of_line hv h, step_of_line hv' hs]
  | waitingForInput =>
    rw [step_of_waitingForInput hv]
    exact step_of_waitingForInput hv
  | waitingForChoice =>
    have hv' : (vm.withScan scan).suspend = .waitingForChoice := hv
    rcases hp : vm.offer.poll with ⟨_ | label, rest⟩
    · rw [step_of_noPick hv hp]
      exact step_of_noPick hv hp
    · have hjump : (vm.withScan scan).reopen.jumpToLabel label = _ :=
        jumpToLabel_withScan scan vm.reopen label
      have hprogram : (vm.reopen.jumpToLabel label).1.program = vm.program :=
        jumpToLabel_program vm.reopen label
      have hchain := runChain_withScan scan
        (hprogram ▸ hagree : ScansAgree (vm.reopen.jumpToLabel label).1.program)
      rw [step_of_pick hv hp, step_of_pick hv' hp]
      simp only [hjump, hchain]
      rfl

theorem input_withScan (vm : Interpreter) (ready : Bool) (given : Input) :
    (vm.withScan scan).input ready given =
      (vm.input ready given).map fun done => (done.1, done.2.withScan scan) := by
  cases given with
  | click =>
    by_cases hv : vm.suspend = .waitingForInput
    · have hv' : (vm.withScan scan).suspend = .waitingForInput := hv
      rw [input_click hv, input_click hv']
      cases ready <;> rfl
    · have hv' : (vm.withScan scan).suspend ≠ .waitingForInput := hv
      rw [input_click_ignored hv, input_click_ignored hv']
      rfl
  | hover index =>
    by_cases hv : vm.suspend = .waitingForChoice
    · have hv' : (vm.withScan scan).suspend = .waitingForChoice := hv
      rw [input_hover hv, input_hover hv']
      change (vm.offer.hover index).map _ = _
      cases vm.offer.hover index <;> rfl
    · have hv' : (vm.withScan scan).suspend ≠ .waitingForChoice := hv
      rw [input_hover_ignored hv, input_hover_ignored hv']
      rfl
  | select index =>
    by_cases hv : vm.suspend = .waitingForChoice
    · have hv' : (vm.withScan scan).suspend = .waitingForChoice := hv
      rw [input_select hv, input_select hv']
      change (vm.offer.select index).map _ = _
      cases vm.offer.select index <;> rfl
    · have hv' : (vm.withScan scan).suspend ≠ .waitingForChoice := hv
      rw [input_select_refused hv, input_select_refused hv']
      rfl

end

end Interpreter

-- ---------------------------------------------------------------------------
-- Histories
-- ---------------------------------------------------------------------------

/-- The moment of an interpreter with another way of scanning. -/
def Moment.withScan (moment : Moment) (scan : BranchScan) : Moment :=
  { moment with vm := moment.vm.withScan scan }

theorem Interpreter.operate_withScan {vm : Interpreter} (scan : BranchScan)
    (hagree : ScansAgree vm.program) (ready : Bool) (op : Operation)
    (hop : ∀ program, op ≠ .load program) :
    (vm.withScan scan).operate ready op = (vm.operate ready op).withScan scan := by
  cases op with
  | step =>
    simp only [operate, step_withScan scan hagree]
    rfl
  | input given =>
    simp only [operate, input_withScan]
    cases vm.input ready given <;> rfl
  | load program => exact absurd rfl (hop program)

namespace Session

/-- The session whose interpreter has another way of scanning. -/
def withScan (session : Session σ) (scan : BranchScan) : Session σ :=
  { session with vm := session.vm.withScan scan }

theorem operate_withScan (sink : DisplaySink σ) (session : Session σ) (scan : BranchScan)
    (hagree : Interpreter.ScansAgree session.vm.program) (op : Operation)
    (hop : ∀ program, op ≠ .load program) :
    ((session.withScan scan).operate sink op).moment =
        (session.operate sink op).moment.withScan scan ∧
      ((session.withScan scan).operate sink op).next =
        (session.operate sink op).next.withScan scan := by
  have hmoment : ((session.withScan scan).operate sink op).moment =
      (session.operate sink op).moment.withScan scan := by
    rw [operate_moment, operate_moment]
    exact Interpreter.operate_withScan scan hagree _ op hop
  refine ⟨hmoment, ?_⟩
  have hvm : ((session.withScan scan).operate sink op).next.vm =
      (session.operate sink op).next.vm.withScan scan := congrArg Moment.vm hmoment
  have hdisplay : ((session.withScan scan).operate sink op).next.display =
      (session.operate sink op).next.display := by
    rw [operate_display, operate_display, hmoment]
    rfl
  exact congrArg₂ Session.mk hvm hdisplay

/-- Of operations that load nothing. -/
theorem moments_withScan (sink : DisplaySink σ) (session : Session σ) (scan : BranchScan)
    (hagree : Interpreter.ScansAgree session.vm.program)
    (hops : ∀ other, .load other ∉ ops) :
    (session.withScan scan).moments sink ops =
        (session.moments sink ops).map (·.withScan scan) ∧
      (session.withScan scan).after sink ops = (session.after sink ops).withScan scan := by
  induction ops generalizing session with
  | nil => exact ⟨rfl, rfl⟩
  | cons op ops ih =>
    obtain ⟨hop, hops⟩ := noLoad_cons.mp hops
    obtain ⟨hmoment, hnext⟩ := operate_withScan sink session scan hagree op hop
    have hprogram := operate_program sink session hop
    obtain ⟨hmoments, hafter⟩ := ih (session.operate sink op).next (hprogram ▸ hagree) hops
    constructor
    · simp only [moments, List.map_cons, hmoment, hnext, hmoments]
    · simp only [after, hnext, hafter]

/-- On a program without complaints and without blocks inside blocks, whatever
state it is in, the two ways of scanning give the same replies, ask for the same
things and go through the same states. -/
theorem flat_same_for_scans (sink : DisplaySink σ) (session : Session σ) (script : String)
    (ops : List Operation)
    (hreport : ∀ marker : Marker,
      (session.vm.program.analyze script).errorsSaying marker.complaint = [])
    (hflat : session.vm.program.Flat) (hops : ∀ other, .load other ∉ ops) :
    let nested := session.withScan .nested
    let linear := session.withScan .linear
    linear.moments sink ops = (nested.moments sink ops).map (·.withScan .linear) ∧
      linear.after sink ops = (nested.after sink ops).withScan .linear := by
  intro nested linear
  have hbalanced : nested.vm.program.Balanced := (Program.balanced_iff script).mpr hreport
  have hagree : Interpreter.ScansAgree nested.vm.program :=
    Interpreter.scansAgree_of_flat hbalanced hflat
  exact moments_withScan sink nested .linear hagree hops

/-- A pick leads into the middle of a block, to a line above its other branch. -/
theorem flat_same_for_scans_intoBlock :
    let program : Program :=
      ⟨[⟨1, "@choice 进去 -> 里面 出去 -> 外面"⟩, ⟨2, "@if affection Yuki >= 80"⟩, ⟨3, "高"⟩,
        ⟨4, ":里面"⟩, ⟨5, "中"⟩, ⟨6, "@elseif affection Yuki >= 0"⟩, ⟨7, "低"⟩, ⟨8, "@endif"⟩,
        ⟨9, ":外面"⟩]⟩
    let session : Session RecordingDisplay := ⟨({} : Interpreter).load program, {}⟩
    let ops : List Operation := [.step, .input (.select 0), .step, .input .click, .step, .step]
    let nested := session.withScan .nested
    let linear := session.withScan .linear
    (∀ marker : Marker, (program.analyze "first.rgo").errorsSaying marker.complaint = []) ∧
      program.Flat ∧ (∀ other, .load other ∉ ops) ∧
      (linear.after RecordingDisplay.sink ops).vm.cursor.line = 8 ∧
      linear.moments RecordingDisplay.sink ops =
        (nested.moments RecordingDisplay.sink ops).map (·.withScan .linear) := by
  intro program session ops nested linear
  have hempty : program.analyze "first.rgo" = [] := by decide +kernel
  have hreport (marker : Marker) :
      (program.analyze "first.rgo").errorsSaying marker.complaint = [] := by
    rw [hempty]
    rfl
  have hflat : program.Flat := by decide +kernel
  have hops : ∀ other, .load other ∉ ops := by simp [ops]
  exact ⟨hreport, hflat, hops, by decide +kernel,
    (flat_same_for_scans RecordingDisplay.sink session "first.rgo" ops hreport hflat hops).1⟩

end Session

end VisualNovel

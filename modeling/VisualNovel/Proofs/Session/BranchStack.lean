import Mathlib.Algebra.GroupWithZero.Nat
import VisualNovel.Display.Recording
import VisualNovel.Proofs.Script.Enclosure
import VisualNovel.Proofs.Session.Strides

/-!
# How many branches are on the stack

Markers push an entry where a block is opened and pop it where it is ended. Jumps
and picks leave the stack as it is, so each block they lead out of keeps its entry
for good. Those blocks counted, the stack has no more entries than blocks enclose
the line run last (`Session.stack_within_blocks`).
-/

namespace VisualNovel

namespace Program

/-- How many blocks the stride leads out of without ending them. -/
def leftBehind (program : Program) : Stride → Nat
  | .line _ => 0
  | .jump before after => program.depth before - program.depth after

def blocksLeft (program : Program) (strides : List Stride) : Nat :=
  (strides.map program.leftBehind).sum

/-- How many blocks enclose the line run last. -/
def lastEnclosing (program : Program) (strides : List Stride) : Nat :=
  ((strides.filterMap Stride.line?).getLast?.map program.enclosing).getD 0

/-- A label that a line names is defined nowhere, or first in as many blocks or more. -/
def StaysInside (program : Program) : Prop :=
  ∀ index < program.size, ∀ label ∈ program.targetsAt index,
    ∀ target ∈ program.findLabel label, program.enclosing index ≤ program.enclosing target

instance (program : Program) : Decidable program.StaysInside := by
  unfold StaysInside
  infer_instance

section
variable {program : Program}

@[simp] theorem blocksLeft_append (strides more : List Stride) :
    program.blocksLeft (strides ++ more) = program.blocksLeft strides + program.blocksLeft more := by
  simp [blocksLeft]

theorem lastEnclosing_line (strides : List Stride) (index : Nat) :
    program.lastEnclosing (strides ++ [.line index]) = program.enclosing index := by
  simp [lastEnclosing, Stride.line?]

theorem lastEnclosing_jump (strides : List Stride) (before after : Nat) :
    program.lastEnclosing (strides ++ [.jump before after]) = program.lastEnclosing strides := by
  simp [lastEnclosing, Stride.line?]

theorem lastEnclosing_le_nesting (program : Program) (strides : List Stride) :
    program.lastEnclosing strides ≤ program.nesting := by
  unfold lastEnclosing
  cases (strides.filterMap Stride.line?).getLast? with
  | none => exact Nat.zero_le _
  | some index => exact program.enclosing_le_nesting index

theorem marker?_of_names (h : program.Names index label) : program.marker? index = none := by
  obtain ⟨body, hform, htarget⟩ := h
  obtain ⟨line, hline, hbody⟩ := Option.map_eq_some_iff.mp hform
  rw [marker?_of_line hline, Marker.ofLine?_of_body hbody]
  generalize (Command.read body).value = command at htarget
  cases command <;> first | rfl | simp [Command.targets] at htarget

theorem marker?_of_findLabel (h : program.findLabel label = some target) :
    program.marker? target = none := by
  obtain ⟨hlt, hlabel, -⟩ := List.findIdx?_eq_some_iff_getElem.mp h
  rw [marker?_of_line (List.getElem?_eq_getElem hlt)]
  generalize program.lines[target] = line at hlabel
  cases hform : line.form with
  | command body => simp [hform, LineForm.labelName?] at hlabel
  | label name => exact Marker.ofLine?_of_label hform
  | dialogue text => simp [hform, LineForm.labelName?] at hlabel

/-- A jump that stays inside leads out of no block. -/
theorem StaysInside.leftBehind_led (hinside : program.StaysInside) (hb : program.Balanced)
    (hled : Interpreter.Led program before after) :
    program.leftBehind (.jump before after) = 0 := by
  rcases hled with rfl | ⟨index, label, target, hnames, hfind, rfl, rfl⟩
  · exact Nat.sub_self _
  · have hle : program.enclosing index ≤ program.enclosing target :=
      hinside index hnames.lt_size label (names_iff.mp hnames) target hfind
    have hfrom := hb.depth_other (marker?_of_names hnames) (by decide) (by decide)
    have hto := hb.depth_other (marker?_of_findLabel hfind) (by decide) (by decide)
    simp only [leftBehind]
    omega

end

end Program

namespace Interpreter

-- ---------------------------------------------------------------------------
-- One line
-- ---------------------------------------------------------------------------

/-- Before every line the stack has no more entries than blocks are open, and those
left behind. -/
structure Stacked (left : Nat) (vm : Interpreter) : Prop where
  balanced : vm.program.Balanced
  nested : vm.options.branchScan = .nested
  depth_le : vm.cursor.depth ≤ vm.program.depth vm.cursor.line + left

section
variable {vm : Interpreter}

theorem Stacked.jumpToLabel (hs : Stacked left vm) (label : String) :
    let next := (vm.jumpToLabel label).1
    Stacked (left + vm.program.leftBehind (.jump vm.cursor.line next.cursor.line)) next ∧
      next.cursor.depth = vm.cursor.depth := by
  have hdepth := hs.depth_le
  cases hf : vm.program.findLabel label with
  | none =>
    rw [jumpToLabel_eq_of_none hf]
    exact ⟨⟨hs.balanced, hs.nested, hdepth.trans (Nat.add_le_add_left (Nat.le_add_right ..) _)⟩, rfl⟩
  | some target =>
    rw [jumpToLabel_eq_of_some hf]
    refine ⟨⟨hs.balanced, hs.nested, ?_⟩, rfl⟩
    simp only [Cursor.jumpTo, Cursor.depth, Program.leftBehind] at hdepth ⊢
    omega

/-- A line that is no marker leaves the stack as it is. -/
theorem Stacked.passLine (hs : Stacked left vm)
    (hm : vm.program.marker? vm.cursor.line = none) :
    Stacked left vm.passLine ∧
      vm.cursor.depth ≤ vm.program.enclosing vm.cursor.line + left := by
  obtain ⟨hsucc, hin⟩ := hs.balanced.depth_other hm (by decide) (by decide)
  have hdepth := hs.depth_le
  exact ⟨⟨hs.balanced, hs.nested, hsucc ▸ hdepth⟩, hin ▸ hdepth⟩

/-- The command is that of the line at the index, which the cursor has passed. -/
theorem Obeys.stacked (h : Obeys vm line command done) (hb : vm.program.Balanced)
    (hn : vm.options.branchScan = .nested) (hline : vm.cursor.line = index + 1)
    (hm : vm.program.marker? index = command.marker?)
    (hle : vm.cursor.depth ≤ vm.program.depth index + left) :
    Stacked left done.1 ∧ done.1.cursor.depth ≤ vm.program.enclosing index + left := by
  -- Wherever a marker takes the cursor, as many blocks are open as behind its line.
  have branched (branches : List Bool) (found : Nat)
      (hfound : vm.program.depth found = vm.program.depth (index + 1))
      (hopen : branches.length ≤ vm.program.depth (index + 1) + left)
      (hin : branches.length ≤ vm.program.enclosing index + left) :
      Stacked left (vm.branchTo found branches) ∧
        (vm.branchTo found branches).cursor.depth ≤ vm.program.enclosing index + left :=
    ⟨⟨hb, hn, hfound ▸ hopen⟩, hin⟩
  have found (hbegins : ∃ marker, vm.program.marker? index = some marker ∧ marker ≠ .endIf) :
      vm.program.depth (vm.options.branchScan.nextBranch vm.program vm.cursor.line) =
          vm.program.depth (index + 1) ∧
        vm.program.depth (vm.options.branchScan.blockEnd vm.program vm.cursor.line) =
          vm.program.depth (index + 1) := by
    obtain ⟨marker, hmarker, hend⟩ := hbegins
    rw [hn, hline]
    exact ⟨congrArg List.length (hb.openBlocks_find hmarker hend rfl rfl),
      congrArg List.length (hb.openBlocks_find hmarker hend rfl rfl)⟩
  unfold Cursor.depth at hle
  cases h with
  | ifHolds _ =>
    obtain ⟨hsucc, hin⟩ := hb.depth_if hm
    rw [hline]
    refine branched _ _ rfl ?_ ?_ <;> rw [List.length_cons] <;> omega
  | ifFails _ =>
    obtain ⟨hsucc, hin⟩ := hb.depth_if hm
    refine branched _ _ (found ⟨_, hm, by decide⟩).1 ?_ ?_ <;> rw [List.length_cons] <;> omega
  | elseIfHolds ht _ | otherwise ht =>
    obtain ⟨hsucc, hin⟩ := hb.depth_other hm (by simp [Command.marker?]) (by simp [Command.marker?])
    rw [ht, List.length_cons] at hle
    rw [hline]
    refine branched _ _ rfl ?_ ?_ <;> rw [List.length_cons] <;> omega
  | elseIfFails ht _ =>
    obtain ⟨hsucc, hin⟩ := hb.depth_other hm (by simp [Command.marker?]) (by simp [Command.marker?])
    rw [ht, List.length_cons] at hle
    refine branched _ _ (found ⟨_, hm, by decide⟩).1 ?_ ?_ <;> rw [List.length_cons] <;> omega
  | elseIfDone _ | otherwiseDone _ =>
    obtain ⟨hsucc, hin⟩ := hb.depth_other hm (by simp [Command.marker?]) (by simp [Command.marker?])
    refine branched _ _ (found ⟨_, hm, by decide⟩).2 ?_ ?_ <;> omega
  | endIf =>
    obtain ⟨hsucc, hin⟩ := hb.depth_endIf hm
    rw [hline]
    refine branched _ _ rfl ?_ ?_ <;> rw [List.length_tail] <;> omega
  | _ =>
    obtain ⟨hsucc, hin⟩ := hb.depth_other hm (by simp [Command.marker?]) (by simp [Command.marker?])
    rw [← hsucc, ← hline] at hle
    exact ⟨⟨hb, hn, hle⟩, by rw [hin, ← hsucc, ← hline]; exact hle⟩

/-- A line run, not a jump made. -/
theorem LineStep.stacked (h : LineStep vm done) (hp : vm.cursor.pendingJump = none)
    (hs : Stacked left vm) :
    Stacked left done.1 ∧
      done.1.cursor.depth ≤ vm.program.enclosing vm.cursor.line + left := by
  cases h with
  | jump hj => simp [hp] at hj
  | @label line _ hr hf =>
    exact hs.passLine ((Program.marker?_of_line hr.2).trans (Marker.ofLine?_of_label hf))
  | @dialogue line _ hr hf =>
    obtain ⟨hpassed, hlast⟩ :=
      hs.passLine ((Program.marker?_of_line hr.2).trans (Marker.ofLine?_of_dialogue hf))
    exact ⟨⟨hpassed.balanced, hpassed.nested, hpassed.depth_le⟩, hlast⟩
  | @command line body done hr hf ho =>
    have hmarker : vm.program.marker? vm.cursor.line = (Command.read body).value.marker? := by
      rw [Program.marker?_of_line hr.2, Marker.ofLine?_of_body hf]
    exact ho.stacked hs.balanced hs.nested rfl hmarker hs.depth_le

-- ---------------------------------------------------------------------------
-- Strides
-- ---------------------------------------------------------------------------

variable {program : Program}

/-- The stack of a story that has made the strides so far. -/
structure Held (program : Program) (made : List Stride) (vm : Interpreter) : Prop where
  program_eq : vm.program = program
  stacked : Stacked (program.blocksLeft made) vm
  last : vm.cursor.depth ≤ program.lastEnclosing made + program.blocksLeft made

theorem Held.jumpToLabel (hs : Held program made vm) (label : String) :
    Held program (made ++ [.jump vm.cursor.line (vm.jumpToLabel label).1.cursor.line])
      (vm.jumpToLabel label).1 := by
  obtain ⟨hstacked, hdepth⟩ := hs.stacked.jumpToLabel label
  have hlast := hs.last
  rw [hs.program_eq] at hstacked
  refine ⟨(jumpToLabel_program vm label).trans hs.program_eq, ?_, ?_⟩
  · simpa [Program.blocksLeft] using hstacked
  · rw [hdepth, Program.lastEnclosing_jump, Program.blocksLeft_append]
    omega

theorem Held.strode (h : Strode vm more next) (hs : Held program made vm) :
    Held program (made ++ more) next := by
  obtain ⟨rfl, ⟨hb, hn, hdepth⟩, hlast⟩ := hs
  cases h with
  | line hv hline =>
    by_cases hp : vm.cursor.pendingJump = none
    · obtain ⟨hstacked, hle⟩ := hline.stacked hp ⟨hb, hn, hdepth⟩
      have hnone : vm.program.blocksLeft [.line vm.cursor.line] = 0 := rfl
      rw [stride, hp]
      refine ⟨hline.program, ?_, ?_⟩
      · simpa [hnone] using hstacked
      · simpa [hnone, Program.lastEnclosing_line] using hle
    · cases hline with
      | jump hj =>
        have htaken : Held vm.program made vm.takeJump := ⟨rfl, ⟨hb, hn, hdepth⟩, hlast⟩
        rw [stride, hj]
        exact htaken.jumpToLabel _
      | label hr _ | dialogue hr _ | command hr _ _ => exact absurd hr.1 hp
  | pick hv hp =>
    have hopen : Held vm.program made vm.reopen := ⟨rfl, ⟨hb, hn, hdepth⟩, hlast⟩
    exact hopen.jumpToLabel _
  | stays hmove hprogram hcursor =>
    rw [List.append_nil]
    refine ⟨hprogram, ⟨hprogram ▸ hb, hmove.options ▸ hn, ?_⟩, hcursor ▸ hlast⟩
    rwa [hprogram, hcursor]

end

end Interpreter

-- ---------------------------------------------------------------------------
-- Histories
-- ---------------------------------------------------------------------------

namespace Session

/-- Whatever a host does with a program whose markers all have partners, the stack has
no more entries than blocks enclose the line run last and than jumps and picks have
led out of; out of none, if all their labels stand as deep as the lines naming them. -/
theorem stack_within_blocks (sink : DisplaySink σ) (session : Session σ) (program : Program)
    (script : String) (ops : List Operation)
    (hreport : ∀ marker : Marker, (program.analyze script).errorsSaying marker.complaint = [])
    (hscan : session.vm.options.branchScan = .nested) (hops : ∀ other, .load other ∉ ops) :
    let loaded : Session σ := ⟨session.vm.load program, session.display⟩
    let strides := loaded.strides sink ops
    let stack := (loaded.after sink ops).vm.cursor.branches
    stack.length ≤ program.lastEnclosing strides + program.blocksLeft strides ∧
      program.lastEnclosing strides ≤ program.nesting ∧
      (program.StaysInside → program.blocksLeft strides = 0) := by
  intro loaded strides stack
  have hbalanced : program.Balanced := (Program.balanced_iff script).mpr hreport
  have hwalk := loaded.walk_after sink hops
  have hloaded : Interpreter.Held program [] loaded.vm :=
    ⟨rfl, ⟨hbalanced, hscan, Nat.zero_le _⟩, Nat.zero_le _⟩
  refine ⟨(hwalk.preserve Interpreter.Held.strode hloaded).last,
    program.lastEnclosing_le_nesting strides, fun hinside => ?_⟩
  have hbound : Interpreter.Bound loaded.vm := .load session.vm program
  refine List.sum_eq_zero_iff_forall_eq_nat.mpr fun count hcount => ?_
  obtain ⟨stride, hstride, rfl⟩ := List.mem_map.mp hcount
  cases stride with
  | line index => rfl
  | jump before after => exact hinside.leftBehind_led hbalanced (hwalk.led hbound hstride)

/-- A jump within a block, and a block inside it that is skipped. -/
theorem stack_within_blocks_innerBlock :
    let program : Program :=
      ⟨[⟨1, "@if affection Yuki >= 0"⟩, ⟨2, "@jump 里"⟩, ⟨3, ":里"⟩,
        ⟨4, "@if affection Yuki >= 80"⟩, ⟨5, "高"⟩, ⟨6, "@endif"⟩, ⟨7, "@endif"⟩]⟩
    let session : Session RecordingDisplay := ⟨{}, {}⟩
    let ops : List Operation := [.step, .step, .step, .step]
    (∀ marker : Marker, (program.analyze "first.rgo").errorsSaying marker.complaint = []) ∧
      session.vm.options.branchScan = .nested ∧ (∀ other, .load other ∉ ops) ∧
      program.StaysInside ∧ program.nesting = 2 ∧
      let loaded : Session RecordingDisplay := ⟨session.vm.load program, session.display⟩
      let strides := loaded.strides RecordingDisplay.sink ops
      let stack := (loaded.after RecordingDisplay.sink ops).vm.cursor.branches
      stack = [false, true] ∧ program.lastEnclosing strides = 2 ∧
        program.blocksLeft strides = 0 := by
  intro program session ops
  have hempty : program.analyze "first.rgo" = [] := by decide +kernel
  have hreport (marker : Marker) :
      (program.analyze "first.rgo").errorsSaying marker.complaint = [] := by
    rw [hempty]
    rfl
  have hops : ∀ other, .load other ∉ ops := by simp [ops]
  have hinside : program.StaysInside := by decide +kernel
  exact ⟨hreport, rfl, hops, hinside, by decide +kernel, by decide +kernel, by decide +kernel,
    (stack_within_blocks RecordingDisplay.sink session program "first.rgo" ops hreport rfl
      hops).2.2 hinside⟩

/-- A block left by a jump and entered again holds two entries. -/
theorem stack_outgrows_nesting :
    let program : Program :=
      ⟨[⟨1, ":again"⟩, ⟨2, "@affection Yuki 1"⟩, ⟨3, "@if affection Yuki >= 0"⟩,
        ⟨4, "@jump again"⟩, ⟨5, "@endif"⟩]⟩
    let loaded : Session RecordingDisplay := ⟨({} : Interpreter).load program, {}⟩
    let outside : List Operation := List.replicate 6 .step
    let again : List Operation := List.replicate 7 .step
    program.analyze "first.rgo" = [] ∧ program.nesting = 1 ∧
      loaded.vm.options.branchScan = .nested ∧
      program.lastEnclosing (loaded.strides RecordingDisplay.sink outside) = 0 ∧
      (loaded.after RecordingDisplay.sink outside).vm.cursor.branches = [true] ∧
      (loaded.after RecordingDisplay.sink again).vm.cursor.branches = [true, true] := by
  decide +kernel

end Session

end VisualNovel

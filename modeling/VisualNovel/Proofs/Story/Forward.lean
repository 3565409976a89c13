import VisualNovel.Proofs.Session.JustPassed
import VisualNovel.Proofs.Story.Autoplay

/-!
# Stories that only go forward

A story whose jumps and menus lead only to labels below them is over after at most
two frames a line, whatever is picked and however slowly text is shown
(`Session.forward_ends`). Frames that pass no line are what makes it two: a text
completed, a jump made, a pick after which the chain is cut at once.
-/

namespace VisualNovel

namespace Program

/-- A label that a line names is defined nowhere, or first below the line. -/
def ForwardOnly (program : Program) : Prop :=
  ∀ index < program.size, ∀ label ∈ program.targetsAt index,
    ∀ target ∈ program.findLabel label, index < target

instance (program : Program) : Decidable program.ForwardOnly := by
  unfold ForwardOnly
  infer_instance

theorem ForwardOnly.lt {program : Program} (hforward : program.ForwardOnly)
    (hn : program.Names index label) (hf : program.findLabel label = some target) :
    index < target :=
  hforward index hn.lt_size label (names_iff.mp hn) target hf

end Program

-- ---------------------------------------------------------------------------
-- Frames left
-- ---------------------------------------------------------------------------

namespace Interpreter

/-- How many frames there can be before the story is over: two for a line, and one
for a jump, a pick or a text that is not ready. -/
def framesLeft (vm : Interpreter) (ready : Bool) : Nat :=
  2 * (vm.program.size - vm.cursor.line) +
    if vm.cursor.pendingJump.isSome ∨ vm.suspend = .waitingForChoice ∨
      vm.suspend = .waitingForInput ∧ ready = false then 1 else 0

section
variable {vm : Interpreter}

theorem framesLeft_le (vm : Interpreter) (ready : Bool) :
    vm.framesLeft ready ≤ 2 * (vm.program.size - vm.cursor.line) + 1 := by
  unfold framesLeft
  split <;> omega

theorem le_framesLeft (vm : Interpreter) (ready : Bool) :
    2 * (vm.program.size - vm.cursor.line) ≤ vm.framesLeft ready :=
  Nat.le_add_right ..

theorem framesLeft_of_free (vm : Interpreter) (hp : vm.cursor.pendingJump = none)
    (hc : vm.suspend ≠ .waitingForChoice)
    (hw : ¬(vm.suspend = .waitingForInput ∧ ready = false)) :
    vm.framesLeft ready = 2 * (vm.program.size - vm.cursor.line) := by
  simp [framesLeft, hp, hc, hw]

theorem framesLeft_of_held (h : vm.cursor.pendingJump.isSome ∨ vm.suspend = .waitingForChoice ∨
      vm.suspend = .waitingForInput ∧ ready = false) :
    vm.framesLeft ready = 2 * (vm.program.size - vm.cursor.line) + 1 := by
  simp only [framesLeft, if_pos h]

theorem framesLeft_le_false (vm : Interpreter) (ready : Bool) :
    vm.framesLeft ready ≤ vm.framesLeft false := by
  cases ready with
  | false => exact Nat.le_refl _
  | true =>
    unfold framesLeft
    split <;> split <;> simp_all

theorem framesLeft_true (h : ¬(vm.suspend = .waitingForInput ∧ ready = false)) :
    vm.framesLeft true = vm.framesLeft ready := by
  simp [framesLeft, h]

/-- A jump from the line that names the label. -/
theorem framesLeft_jumpToLabel (vm : Interpreter) (hforward : vm.program.ForwardOnly)
    (hn : vm.JustNamed label) (hp : vm.cursor.pendingJump = none)
    (hv : vm.suspend = .running) (ready : Bool) :
    (vm.jumpToLabel label).1.framesLeft ready ≤ 2 * (vm.program.size - vm.cursor.line) := by
  obtain ⟨index, hline, hnames⟩ := hn
  have hc : vm.suspend ≠ .waitingForChoice := by simp [hv]
  have hw : ¬(vm.suspend = .waitingForInput ∧ ready = false) := by simp [hv]
  cases hf : vm.program.findLabel label with
  | none =>
    rw [jumpToLabel_eq_of_none hf]
    exact Nat.le_of_eq (framesLeft_of_free vm hp hc hw)
  | some target =>
    have hlt := hforward.lt hnames hf
    rw [jumpToLabel_eq_of_some hf]
    have hleft := framesLeft_of_free { vm with cursor := vm.cursor.jumpTo (target + 1) } hp hc hw
    simp only [Cursor.jumpTo] at hleft ⊢
    omega

/-- No scan goes back. -/
theorem Obeys.line_le (h : Obeys vm line command done) (hl : vm.cursor.line ≤ vm.program.size) :
    vm.cursor.line ≤ done.1.cursor.line := by
  cases h with
  | ifFails | elseIfFails | elseIfDone | otherwiseDone => exact BranchScan.le_find _ _ hl
  | _ => exact Nat.le_refl _

theorem LineStep.line_lt (h : LineStep vm done) (hp : vm.cursor.pendingJump = none) :
    vm.cursor.line < vm.program.size ∧ vm.cursor.line < done.1.cursor.line := by
  cases h with
  | jump hj => simp [hp] at hj
  | label hr _ | dialogue hr _ => exact ⟨hr.lt, Nat.lt_succ_self _⟩
  | command hr _ ho => exact ⟨hr.lt, ho.line_le hr.lt⟩

theorem LineStep.framesLeft_lt (h : LineStep vm done) (hb : vm.Bound)
    (hforward : vm.program.ForwardOnly) (hv : vm.suspend = .running) (ready : Bool) :
    done.1.framesLeft false < vm.framesLeft ready := by
  cases hj : vm.cursor.pendingJump with
  | some label =>
    have hjump : LineStep vm _ := .jump hj
    cases h.stepLine?.symm.trans hjump.stepLine?
    rw [framesLeft_of_held (.inl (Option.isSome_of_eq_some hj))]
    have hn : vm.takeJump.JustNamed label := hb.pending label hj
    exact Nat.lt_succ_of_le (framesLeft_jumpToLabel vm.takeJump hforward hn rfl hv false)
  | none =>
    -- A line passed is worth two frames, and what it leaves to be done at most one.
    obtain ⟨hlt, hline⟩ := h.line_lt hj
    have hnext := framesLeft_le done.1 false
    have hthis := le_framesLeft vm ready
    rw [h.program] at hnext
    omega

theorem Chain.framesLeft_le (h : Chain vm chain) (hb : vm.Bound)
    (hforward : vm.program.ForwardOnly) :
    chain.1.framesLeft false ≤ vm.framesLeft false := by
  induction h with
  | waits | ends | cut => exact Nat.le_refl _
  | line hv hs _ ih =>
    have hmore := ih (hs.bound hb hv) (hs.program ▸ hforward)
    exact Nat.le_trans hmore (Nat.le_of_lt (hs.framesLeft_lt hb hforward hv false))

end

end Interpreter

/-- The story is over, a pick is refused, or fewer frames are left. -/
inductive Program.Nears (program : Program) (frames : Nat) (ready : Bool) :
    Option Stop → Interpreter → Prop
  | ends : Nears program frames ready (some .over) next
  | refused : Nears program frames ready (some (.refused (.invalidChoiceIndex index count))) next
  | goes : next.Bound → next.program = program → next.framesLeft ready < frames →
      Nears program frames ready none next

-- ---------------------------------------------------------------------------
-- Turns
-- ---------------------------------------------------------------------------

namespace Tale

section
variable (tale : Tale) (hb : tale.vm.Bound) (hforward : tale.vm.program.ForwardOnly)
include hb hforward

theorem turn_nears_running (hv : tale.vm.suspend = .running) :
    tale.vm.program.Nears (tale.vm.framesLeft true) ready tale.turn.stop tale.turn.next.vm := by
  cases hs : tale.vm.stepLine? with
  | none =>
    rw [turn_of_end hv hs]
    exact .ends
  | some done =>
    have hline := Interpreter.stepLine?_eq_some.mp hs
    rw [turn_of_line hv hs]
    have hlt := hline.framesLeft_lt hb hforward hv true
    exact .goes (hline.bound hb hv) hline.program
      (Nat.lt_of_le_of_lt (Interpreter.framesLeft_le_false ..) hlt)

theorem turn_nears :
    tale.vm.program.Nears (tale.vm.framesLeft true) ready tale.turn.stop tale.turn.next.vm := by
  cases hv : tale.vm.suspend with
  | running => exact turn_nears_running tale hb hforward hv
  | waitingForInput =>
    have hp := (hb.coherent.of_waitingForInput hv).2.2.2.1
    have hb' : tale.resume.vm.Bound := hb.move (.resume hv)
    have hleft : tale.resume.vm.framesLeft true = tale.vm.framesLeft true := by
      rw [tale.vm.framesLeft_of_free hp (by simp [hv]) (by simp)]
      exact Interpreter.framesLeft_of_free _ hp (by simp [resume]) (by simp)
    rw [turn_of_waitingForInput hv, ← hleft]
    exact turn_nears_running tale.resume hb' hforward rfl
  | waitingForChoice =>
    cases h : tale.vm.offer.choices[tale.picks.headD 0]? with
    | none =>
      rw [turn_of_noChoice hv h]
      exact .refused
    | some choice =>
      obtain ⟨-, hopen, -, hp, -⟩ := hb.coherent.of_waitingForChoice hv
      have hn : tale.vm.reopen.JustNamed choice.target :=
        hb.offered hv (List.mem_of_getElem? h)
      have hjumped := hb.picked hv choice.target
      have hprogram := Interpreter.jumpToLabel_program tale.vm.reopen choice.target
      have hjump :=
        Interpreter.framesLeft_jumpToLabel tale.vm.reopen hforward hn hp rfl false
      have hchain := Interpreter.chain_runChain
        (tale.vm.reopen.jumpToLabel choice.target).1.options.maxChainSteps
        (tale.vm.reopen.jumpToLabel choice.target).1
      have hleft := hchain.framesLeft_le hjumped (hprogram ▸ hforward)
      rw [turn_of_choice hv hopen.active h]
      refine .goes (hchain.moves.preserve Interpreter.Bound.move hjumped)
        (hchain.program.trans hprogram) ?_
      rw [Interpreter.framesLeft_of_held (.inr (.inl hv))]
      have hle := Nat.le_trans (Interpreter.framesLeft_le_false _ ready) hleft
      exact Nat.lt_succ_of_le (Nat.le_trans hle hjump)

end

end Tale

-- ---------------------------------------------------------------------------
-- Frames
-- ---------------------------------------------------------------------------

namespace Autoplay

def framesLeft (sink : DisplaySink σ) (play : Autoplay σ) : Nat :=
  play.session.vm.framesLeft (sink.isTextReady play.session.display)

theorem frame_nears {sink : DisplaySink σ}
    (hready : ∀ display, sink.isTextReady (sink.completeText display) = true)
    {play : Autoplay σ} (hb : play.session.vm.Bound)
    (hforward : play.session.vm.program.ForwardOnly) :
    play.session.vm.program.Nears (play.framesLeft sink)
      (sink.isTextReady (play.frame sink).2.session.display) (play.frame sink).1
      (play.frame sink).2.session.vm := by
  by_cases hw : play.Waits sink
  · have hp := (hb.coherent.of_waitingForInput hw.1).2.2.2.1
    rw [frame_of_waits hw]
    refine .goes hb rfl ?_
    rw [hready, framesLeft, Interpreter.framesLeft_of_held (.inr (.inr hw)),
      play.session.vm.framesLeft_of_free hp (by simp [hw.1]) (by simp)]
    exact Nat.lt_succ_self _
  · obtain ⟨hstop, htale, -⟩ := frame_of_not_waits hw
    have hvm : (play.frame sink).2.session.vm = play.tale.turn.next.vm := congrArg Tale.vm htale
    have hleft : play.session.vm.framesLeft true = play.framesLeft sink :=
      Interpreter.framesLeft_true hw
    rw [hstop, hvm, ← hleft]
    exact play.tale.turn_nears hb hforward

end Autoplay

-- ---------------------------------------------------------------------------
-- Runs
-- ---------------------------------------------------------------------------

namespace Session

/-- From anywhere in the story. -/
theorem autoplayFrom_ends {sink : DisplaySink σ}
    (hready : ∀ display, sink.isTextReady (sink.completeText display) = true)
    (play : Autoplay σ) (hb : play.session.vm.Bound)
    (hforward : play.session.vm.program.ForwardOnly) (hleft : play.framesLeft sink < frames)
    (frame : Nat) :
    let run := autoplayFrom sink frame frames play.picks play.session
    (∃ last ≤ frame + play.framesLeft sink, run.ending = .ended last) ∨
      ∃ index count, run.ending = .rejected (.invalidChoiceIndex index count) := by
  -- By the frames that may still be played, of which each uses up one that is left.
  induction frames generalizing play frame with
  | zero => exact absurd hleft (Nat.not_lt_zero _)
  | succ frames ih =>
    intro run
    have hnears := Autoplay.frame_nears hready hb hforward
    rcases hframe : play.frame sink with ⟨stop, next⟩
    rw [hframe] at hnears
    cases hnears with
    | ends =>
      obtain ⟨hending, -, -⟩ := autoplayFrom_of_stop hframe frame frames
      exact .inl ⟨frame, Nat.le_add_right .., hending⟩
    | refused =>
      obtain ⟨hending, -, -⟩ := autoplayFrom_of_stop hframe frame frames
      exact .inr ⟨_, _, hending⟩
    | goes hbound hprogram hlt =>
      obtain ⟨hending, -, -⟩ := autoplayFrom_of_go hframe frame frames
      have hfewer : next.framesLeft sink < play.framesLeft sink := hlt
      have hrest := ih next hbound (hprogram ▸ hforward) (by omega) (frame + 1)
      rcases hrest with ⟨last, hlast, hended⟩ | ⟨index, count, hrejected⟩
      · exact .inl ⟨last, by omega, hending.trans hended⟩
      · exact .inr ⟨index, count, hending.trans hrejected⟩

/-- A story that only goes forward is over in one of the first `2 * program.size + 1`
frames, or in one of them something is picked that is not on offer. -/
theorem forward_ends (program : Program) (hforward : program.ForwardOnly) (options : Options)
    (affection : AffectionTable) (display : RecordingDisplay) (picks : List Nat) (frames : Nat)
    (hframes : 2 * program.size < frames) :
    let run := autoplay RecordingDisplay.sink frames picks (fresh program options affection display)
    (∃ last ≤ 2 * program.size, run.ending = .ended last) ∨
      ∃ index count, run.ending = .rejected (.invalidChoiceIndex index count) := by
  let play : Autoplay RecordingDisplay := ⟨fresh program options affection display, picks, []⟩
  have hready (display : RecordingDisplay) :
      RecordingDisplay.sink.isTextReady (RecordingDisplay.sink.completeText display) = true := rfl
  have hv : play.session.vm.suspend = .running := rfl
  have hb : play.session.vm.Bound := .of_noJump (.running hv (Nat.zero_le _) rfl) rfl
  have hleft : play.framesLeft RecordingDisplay.sink = 2 * program.size :=
    Interpreter.framesLeft_of_free play.session.vm rfl (by simp [hv]) (by simp [hv])
  have hends := autoplayFrom_ends hready play hb hforward (hleft ▸ hframes) 0
  rwa [hleft, Nat.zero_add] at hends

/-- A menu and a jump, no line in the frame of a pick, and text that has to be
completed. -/
theorem forward_ends_slowly :
    let program : Program :=
      ⟨[⟨1, "@choice 进去 -> 里面 出去 -> 外面"⟩, ⟨2, ":里面"⟩, ⟨3, "中"⟩, ⟨4, "@jump 外面"⟩,
        ⟨5, "后"⟩, ⟨6, ":外面"⟩, ⟨7, "完"⟩]⟩
    let run := autoplay RecordingDisplay.sink 15 [0]
      (fresh program { maxChainSteps := 0 } {} { instantText := false })
    program.ForwardOnly ∧ 2 * program.size < 15 ∧ run.ending = .ended 8 ∧
      ((∃ last ≤ 2 * program.size, run.ending = .ended last) ∨
        ∃ index count, run.ending = .rejected (.invalidChoiceIndex index count)) := by
  intro program run
  have hforward : program.ForwardOnly := by decide +kernel
  have hframes : 2 * program.size < 15 := by decide
  exact ⟨hforward, hframes, by decide +kernel,
    forward_ends program hforward { maxChainSteps := 0 } {} { instantText := false } [0] 15
      hframes⟩

/-- Two lines that are both shown slowly take all the frames there can be. -/
example :
    let program : Program := ⟨[⟨1, "中"⟩, ⟨2, "完"⟩]⟩
    (autoplay RecordingDisplay.sink 5 [] (fresh program {} {} { instantText := false })).ending =
      .ended (2 * program.size) := by
  decide +kernel

end Session

end VisualNovel

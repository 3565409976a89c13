import VisualNovel.Display.Recording
import VisualNovel.Proofs.Block.Run
import VisualNovel.Proofs.Session.History

/-!
# Blocks on a display

A host that steps, and clicks whenever there is text to be read, gets through a
block in finitely many turns on any display that can complete its text. What is
shown and written on the way is what the block means (`Session.told_block`).
-/

namespace VisualNovel

def DisplayCall.command? : DisplayCall → Option DisplayCommand
  | .execute command => some command
  | .completeText => none

def Event.command? : Event → Option DisplayCommand
  | .shown command => some command
  | .wrote .. => none

/-- What a host does next that wants to be told the story. -/
def Interpreter.turn (vm : Interpreter) : Operation :=
  if vm.suspend = .waitingForInput then .input .click else .step

namespace Session

/-- The session after so many turns, with what was shown and written. -/
def told (sink : DisplaySink σ) (session : Session σ) : Nat → Session σ × List Event
  | 0 => (session, [])
  | turns + 1 =>
    let performed := session.operate sink session.vm.turn
    let (last, events) := performed.next.told sink turns
    (last, performed.actions.filterMap Action.event? ++ events)

-- ---------------------------------------------------------------------------
-- What the display is sent
-- ---------------------------------------------------------------------------

theorem filterMap_calls (moment : Moment) :
    moment.calls.filterMap DisplayCall.command? =
      (moment.actions.filterMap Action.event?).filterMap Event.command? := by
  have hactions : (moment.actions.flatMap Action.calls).filterMap DisplayCall.command? =
      (moment.actions.filterMap Action.event?).filterMap Event.command? := by
    induction moment.actions with
    | nil => rfl
    | cons action actions ih =>
      rw [List.flatMap_cons, List.filterMap_append, ih]
      cases action <;> rfl
  rw [Moment.calls, List.filterMap_append, hactions]
  split <;> exact List.append_nil _

/-- The display is sent the commands shown and no others. -/
theorem told_display (sink : DisplaySink σ) (session : Session σ) (turns : Nat) :
    ∃ calls, (session.told sink turns).1.display = sink.replay session.display calls ∧
      calls.filterMap DisplayCall.command? =
        (session.told sink turns).2.filterMap Event.command? := by
  induction turns generalizing session with
  | zero => exact ⟨[], rfl, rfl⟩
  | succ turns ih =>
    obtain ⟨calls, hd, hc⟩ := ih (session.operate sink session.vm.turn).next
    refine ⟨(session.operate sink session.vm.turn).moment.calls ++ calls, ?_, ?_⟩
    · rw [operate_display] at hd
      simpa [told, DisplaySink.replay] using hd
    · rw [List.filterMap_append, filterMap_calls, hc]
      simp [told, Performed.moment]

-- ---------------------------------------------------------------------------
-- From lines to turns
-- ---------------------------------------------------------------------------

/-- In some number of turns the session comes to the interpreter. -/
def Reaches (sink : DisplaySink σ) (session : Session σ) (events : List Event)
    (last : Interpreter) : Prop :=
  ∃ turns, (session.told sink turns).1.vm = last ∧ (session.told sink turns).2 = events

section
variable {sink : DisplaySink σ} {session : Session σ} {vm last : Interpreter} {moment : Moment}

theorem Reaches.turn
    (hm : session.vm.operate (sink.isTextReady session.display) session.vm.turn = moment)
    (h : Reaches sink ⟨moment.vm, sink.replay session.display moment.calls⟩ events last) :
    Reaches sink session (moment.actions.filterMap Action.event? ++ events) last := by
  rw [← operate_moment] at hm
  subst hm
  rw [← operate_display] at h
  obtain ⟨turns, rfl, rfl⟩ := h
  exact ⟨turns + 1, rfl, rfl⟩

theorem Reaches.line (hv : session.vm.suspend = .running)
    (hs : session.vm.LineStep (next, actions))
    (h : ∀ display, Reaches sink ⟨next, display⟩ events last) :
    Reaches sink session (actions.filterMap Action.event? ++ events) last := by
  have hturn : session.vm.turn = .step := if_neg (by simp [hv])
  have hm : session.vm.operate (sink.isTextReady session.display) session.vm.turn =
      ⟨.stepped true, actions, next⟩ := by
    rw [hturn, Interpreter.operate, Interpreter.step_of_line hv hs.stepLine?]
  exact .turn hm (h _)

/-- A click on text shown in full resumes the story. -/
theorem Reaches.resume (hv : session.vm.suspend = .waitingForInput)
    (hr : sink.isTextReady session.display = true)
    (h : Reaches sink ⟨{ session.vm with suspend := .running }, session.display⟩ events last) :
    Reaches sink session events last := by
  have hturn : session.vm.turn = .input .click := if_pos hv
  have hm : session.vm.operate (sink.isTextReady session.display) session.vm.turn =
      ⟨.answered .resumed, [], { session.vm with suspend := .running }⟩ := by
    simp only [hturn, Interpreter.operate, Interpreter.input_click hv, hr, if_true]
  exact .turn hm h

/-- Two clicks do when the first has to complete the text. -/
theorem Reaches.click (hready : ∀ display, sink.isTextReady (sink.completeText display) = true)
    (hv : session.vm.suspend = .waitingForInput)
    (h : ∀ display, Reaches sink ⟨{ session.vm with suspend := .running }, display⟩ events last) :
    Reaches sink session events last := by
  cases hr : sink.isTextReady session.display with
  | true => exact .resume hv hr (h _)
  | false =>
    have hturn : session.vm.turn = .input .click := if_pos hv
    have hm : session.vm.operate (sink.isTextReady session.display) session.vm.turn =
        ⟨.answered .revealCompleted, [], session.vm⟩ := by
      simp only [hturn, Interpreter.operate, Interpreter.input_click hv, hr]
      rfl
    have hcompleted : Reaches sink ⟨session.vm, sink.completeText session.display⟩ events last :=
      .resume hv (hready _) (h _)
    exact .turn hm hcompleted

theorem reaches_of_plays (hready : ∀ display, sink.isTextReady (sink.completeText display) = true)
    (h : Plays vm events last) (display : σ) : Reaches sink ⟨vm, display⟩ events last := by
  induction h generalizing display with
  | refl => exact ⟨0, rfl, rfl⟩
  | line hv hs hn _ ih =>
    refine .line hv hs fun display => ?_
    rcases hn with hn | hn
    · rw [← hn] at ih
      exact ih display
    · exact .click hready hn ih

end

-- ---------------------------------------------------------------------------
-- Blocks
-- ---------------------------------------------------------------------------

/-- A block is told as it is meant, wherever it stands in a program and whatever
is on the stack of branches; besides the line, the affections and the text, the
interpreter is in the end as it was. -/
theorem told_block (sink : DisplaySink σ)
    (hready : ∀ display, sink.isTextReady (sink.completeText display) = true)
    (session : Session σ) (block : Block)
    (hlines : session.vm.program.HasAt session.vm.cursor.line block.lines)
    (hnested : session.vm.options.branchScan = .nested)
    (hrunning : session.vm.suspend = .running) (hjump : session.vm.cursor.pendingJump = none) :
    let meaning := block.tell session.vm.affection
    ∃ turns calls,
      (session.told sink turns).1.vm = { session.vm with
        cursor := { session.vm.cursor with line := session.vm.cursor.line + block.lines.length }
        affection := meaning.1
        currentText := textAfter session.vm.currentText meaning.2 } ∧
      (session.told sink turns).2 = meaning.2 ∧
      (session.told sink turns).1.display = sink.replay session.display calls ∧
      calls.filterMap DisplayCall.command? = meaning.2.filterMap Event.command? := by
  have hgoes := block.goes hnested session.vm.cursor.line session.vm.cursor.branches
    session.vm.affection [] (by rwa [List.append_nil]) session.vm.currentText
  have hstart : session.vm.placed
      ⟨session.vm.cursor.line, session.vm.cursor.branches, session.vm.affection⟩
      session.vm.currentText = session.vm := by
    rw [Interpreter.placed, ← hrunning, ← hjump]
  rw [hstart] at hgoes
  obtain ⟨turns, hvm, hevents⟩ := reaches_of_plays hready hgoes session.display
  obtain ⟨calls, hdisplay, hcalls⟩ := told_display sink session turns
  refine ⟨turns, calls, ?_, hevents, hdisplay, by rw [hcalls]; exact congrArg _ hevents⟩
  refine hvm.trans ?_
  rw [Interpreter.placed, ← hrunning, ← hjump]

/-- A chain in the first branch of another, and a line below. -/
def chainInChain : Block :=
  .chain (.affection "Yuki" .ge 80) ⟨⟨2, "@if affection Yuki >= 80"⟩, rfl⟩
    (.plain ⟨⟨3, "外层"⟩, rfl⟩
      (.chain (.affection "Yuki" .ge 0) ⟨⟨4, "@if affection Yuki >= 0"⟩, rfl⟩
        (.plain ⟨⟨5, "内层"⟩, rfl⟩ .done)
        (.otherwise ⟨⟨6, "@else"⟩, rfl⟩ (.plain ⟨⟨7, "内层否"⟩, rfl⟩ .done))
        ⟨⟨8, "@endif"⟩, rfl⟩ .done))
    (.otherwise ⟨⟨9, "@else"⟩, rfl⟩ (.plain ⟨⟨10, "外层否"⟩, rfl⟩ .done))
    ⟨⟨11, "@endif"⟩, rfl⟩
    (.plain ⟨⟨12, "@affection Yuki 5"⟩, rfl⟩ .done)

/-- Behind a label, with a branch left open, on a display that shows text slowly. -/
theorem told_block_chainInChain :
    let vm : Interpreter :=
      { program := ⟨⟨1, ":开始"⟩ :: chainInChain.lines⟩
        cursor := { line := 1, branches := [false] } }
    let display : RecordingDisplay := { instantText := false, textReady := false }
    ∃ turns,
      (Session.told RecordingDisplay.sink ⟨vm, display⟩ turns).1.vm.cursor =
        { line := 12, branches := [false] } ∧
      (Session.told RecordingDisplay.sink ⟨vm, display⟩ turns).2 =
        [.shown (.showText "外层否"), .wrote "Yuki" 5] := by
  intro vm display
  obtain ⟨turns, _, hvm, hevents, _⟩ := told_block RecordingDisplay.sink (fun _ => rfl)
    ⟨vm, display⟩ chainInChain (List.prefix_refl _) rfl rfl rfl
  refine ⟨turns, ?_, ?_⟩
  · rw [hvm]
    rfl
  · rw [hevents]
    decide +kernel

end Session

end VisualNovel

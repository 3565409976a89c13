import VisualNovel.Playthrough
import VisualNovel.Proofs.Stage.MenuLaws
import VisualNovel.Proofs.Stage.RevealLaws
import VisualNovel.Proofs.Stage.StageLaws
import VisualNovel.Proofs.Story.Turn

/-!
# What a frame does

A frame of a playthrough waits for a text, or it is a turn of the tale
(`frame_of_waits`, `frame_of_not_waits`). The transcript and the selections grow
by what is said and chosen in it, and the pointer always hits the option it is
moved to.
-/

namespace VisualNovel

namespace Happening

def said? : Happening → Option String
  | .event (.shown command) => command.text?
  | _ => none

def chosen? : Happening → Option String
  | .chose text => some text
  | .event _ => none

def said (told : List Happening) : List String :=
  told.filterMap said?

def chosen (told : List Happening) : List String :=
  told.filterMap chosen?

theorem said_append (told more : List Happening) : said (told ++ more) = said told ++ said more :=
  List.filterMap_append ..

theorem chosen_append (told more : List Happening) :
    chosen (told ++ more) = chosen told ++ chosen more :=
  List.filterMap_append ..

theorem said_happenings (actions : List Action) :
    said (Action.happenings actions) = Action.texts actions := by
  simp only [said, Action.happenings, Action.texts, List.filterMap_map, List.filterMap_filterMap]
  congr 1
  funext action
  cases action <;> rfl

theorem chosen_happenings (actions : List Action) : chosen (Action.happenings actions) = [] := by
  simp [chosen, Action.happenings, List.filterMap_map, Function.comp_def, chosen?]

end Happening

theorem Tale.said_choosing (tale : Tale) : Happening.said tale.choosing = [] := by
  unfold choosing
  split
  · cases tale.vm.offer.choices[tale.picks.headD 0]? <;> simp [Happening.said, Happening.said?]
  · rfl

theorem Tale.chosen_choosing {tale : Tale} (hv : tale.vm.suspend = .waitingForChoice)
    (h : tale.vm.offer.choices[tale.picks.headD 0]? = some choice) :
    Happening.chosen tale.choosing = [choice.text] := by
  rw [choosing_of_choice hv h]
  rfl

namespace Playthrough

def tale (play : Playthrough) : Tale :=
  ⟨play.vm, play.picks⟩

def text (play : Playthrough) : Reveal :=
  play.stage.scene.text

theorem pointedAt_of_laid {play : Playthrough} (hl : play.stage.MenuLaid) (index : Nat) :
    play.pointedAt index = index := by
  unfold pointedAt
  cases hm : play.stage.scene.menu with
  | none => rfl
  | some menu =>
    obtain ⟨choices, screenWidth, rfl⟩ := hl menu hm
    rw [Option.bind_some, Menu.pointAt_layout]
    split <;> rfl

/-- What holds between the frames. -/
structure Sound (play : Playthrough) : Prop where
  unpicked : play.tale.vm.Unpicked
  laid : play.stage.MenuLaid

-- ---------------------------------------------------------------------------
-- The input of a frame
-- ---------------------------------------------------------------------------

/-- The playthrough once its tale has been given the input it waits for. -/
def answered (play : Playthrough) (tale : Tale) : Playthrough :=
  { play with
    session := ⟨tale.vm, play.stage⟩
    picks := tale.picks
    selections := play.selections.append (Happening.chosen play.tale.choosing).toArray }

section
variable {play : Playthrough}

theorem give_eq_of_input {given : Input} {answer : Except RuntimeError (InputOutcome × Interpreter)}
    (h : play.vm.input play.stage.isTextReady given = answer) :
    play.give given = answer.map fun done =>
      { play with session := ⟨done.2,
          if done.1 = .revealCompleted then play.stage.completeText else play.stage⟩ } := by
  have h' : play.session.vm.input (Stage.sink.isTextReady play.session.display) given = answer := h
  rw [give, Session.input_eq_map, h']
  cases answer <;> rfl

theorem give_hover (hv : play.vm.suspend = .waitingForChoice) (index : Nat) :
    play.give (.hover index) = (play.vm.offer.hover index).map fun offer =>
      { play with session := ⟨{ play.vm with offer }, play.stage⟩ } := by
  rw [give_eq_of_input (Interpreter.input_hover hv)]
  cases play.vm.offer.hover index <;> rfl

theorem give_select (hv : play.vm.suspend = .waitingForChoice) (index : Nat) :
    play.give (.select index) = (play.vm.offer.select index).map fun offer =>
      { play with session := ⟨{ play.vm with offer }, play.stage⟩ } := by
  rw [give_eq_of_input (Interpreter.input_select hv)]
  cases play.vm.offer.select index <;> rfl

theorem give_click (hv : play.vm.suspend = .waitingForInput) (hr : play.text.isReady = true) :
    play.give .click =
      .ok { play with session := ⟨{ play.vm with suspend := .running }, play.stage⟩ } := by
  have hready : play.stage.isTextReady = true := hr
  rw [give_eq_of_input (Interpreter.input_click hv), hready]
  rfl

theorem give_click_early (hv : play.vm.suspend = .waitingForInput)
    (hr : play.text.isReady = false) :
    play.give .click = .ok { play with session := ⟨play.vm, play.stage.completeText⟩ } := by
  have hready : play.stage.isTextReady = false := hr
  rw [give_eq_of_input (Interpreter.input_click hv), hready]
  rfl

theorem answered_of_not_choosing (hv : play.vm.suspend ≠ .waitingForChoice) (tale : Tale) :
    play.answered tale = { play with session := ⟨tale.vm, play.stage⟩, picks := tale.picks } := by
  have hchoosing : play.tale.choosing = [] := if_neg hv
  simp [answered, hchoosing, Happening.chosen]

/-- Off the menu or on it, what is pointed at is the option listed; and the pick
that follows makes up for the hover before it. -/
theorem choose_of_laid (hl : play.stage.MenuLaid) (hv : play.vm.suspend = .waitingForChoice) :
    play.choose = play.tale.answer.map play.answered := by
  let index := play.picks.headD 0
  let rest : Playthrough := { play with picks := play.picks.tail }
  have hrest : rest.vm.suspend = .waitingForChoice := hv
  rw [choose, pointedAt_of_laid hl]
  change (rest.give (.hover index)).bind _ = _
  rw [give_hover hrest]
  cases h : play.vm.offer.choices[index]? with
  | none =>
    have hhover : rest.vm.offer.hover index = .error _ := Offer.hover_of_none h
    rw [hhover, Tale.answer_of_noChoice hv h]
    rfl
  | some choice =>
    have hhover : rest.vm.offer.hover index = .ok _ := Offer.hover_of_some h
    let hovering : Playthrough := { rest with
      session := ⟨{ play.vm with offer := { play.vm.offer with hovered := some index } },
        play.stage⟩ }
    have hhovering : hovering.vm.suspend = .waitingForChoice := hv
    have hselect : hovering.vm.offer.select index = .ok _ := Offer.select_of_some h
    rw [hhover, Tale.answer_of_choice hv h]
    change (hovering.give (.select index)).bind _ = _
    rw [give_select hhovering, hselect, Except.map, Except.map, answered,
      Tale.chosen_choosing hv h]
    change Except.ok { play.answered play.tale.pick with
      selections := play.selections.append
        (play.vm.offer.choices[index]?.map Choice.text).toArray } = _
    rw [h]
    rfl

theorem applyInput_eq (hs : play.Sound)
    (hr : play.vm.suspend = .waitingForInput → play.text.isReady = true) :
    play.applyInput = play.tale.answer.map play.answered := by
  cases hv : play.vm.suspend with
  | running =>
    have hanswer : play.tale.answer = .ok play.tale := by simp only [Tale.answer, tale, hv]
    rw [applyInput, hv, hanswer, Except.map, answered_of_not_choosing (by simp [hv])]
    rfl
  | waitingForInput =>
    have hanswer : play.tale.answer = .ok play.tale.resume := by simp only [Tale.answer, tale, hv]
    have hready : play.stage.isTextReady = true := hr hv
    rw [applyInput, hv, hanswer, Except.map, answered_of_not_choosing (by simp [hv])]
    simp only [hready, Bool.or_true]
    exact give_click hv (hr hv)
  | waitingForChoice =>
    obtain ⟨-, hselected⟩ := hs.unpicked hv
    have hpick : play.vm.offer.hasSelection = false :=
      Bool.and_eq_false_imp.mpr fun _ => congrArg Option.isSome hselected
    rw [applyInput, hv]
    simp only [hpick]
    exact choose_of_laid hs.laid hv

theorem applyInput_of_choosing (hs : play.Sound) (hv : play.vm.suspend = .waitingForChoice) :
    play.applyInput = play.tale.answer.map play.answered :=
  applyInput_eq hs fun hw => nomatch hv.symm.trans hw

-- ---------------------------------------------------------------------------
-- The step of a frame
-- ---------------------------------------------------------------------------

/-- A step in terms of the interpreter's. -/
theorem step_eq (play : Playthrough) :
    play.step =
      let plan := play.vm.step
      let done := Stage.sink.performAll play.stage plan.actions
      let entered := play.vm.suspend ≠ .waitingForInput ∧ plan.next.suspend = .waitingForInput
      let said := if entered then plan.next.currentText else none
      (plan.running,
        { play with
          session := ⟨plan.next, done.1⟩
          transcript := play.transcript.append said.toArray
          log := play.log.append done.2.toArray }) := by
  rw [step, Session.step_eq_carryOut]
  rfl

theorem step_vm (play : Playthrough) : play.step.2.vm = play.vm.step.next := by
  rw [step_eq]
  rfl

/-- The text a step begins to wait for is the text it has shown. -/
theorem step_transcript (play : Playthrough) :
    play.step.2.transcript.toList =
      play.transcript.toList ++ Action.texts play.vm.step.actions := by
  rw [step_eq]
  refine Array.toList_append.trans ?_
  by_cases hv : play.vm.suspend = .waitingForInput
  · rw [Interpreter.step_of_waitingForInput hv, if_neg fun h => h.1 hv]
    rfl
  · have hshows := Interpreter.step_shows hv
    generalize Action.texts play.vm.step.actions = shown at hshows ⊢
    cases hshows with
    | text hnext htext =>
      rw [if_pos ⟨hv, hnext⟩]
      exact congrArg (_ ++ ·.toArray.toList) htext
    | nothing hnext => rw [if_neg fun h => hnext h.2]; rfl

theorem step_of_waitingForInput (hv : play.vm.suspend = .waitingForInput) :
    play.step = (true, play) := by
  have hstep := Interpreter.step_of_waitingForInput hv
  rw [step_eq, hstep]
  simp [vm, stage, DisplaySink.performAll]

/-- Where a playthrough has come to, with what has been told on the way. -/
structure Heard (play next : Playthrough) (tale : Tale) (told : List Happening) (text : Reveal) :
    Prop where
  tale : next.tale = tale
  transcript : next.transcript.toList = play.transcript.toList ++ Happening.said told
  selections : next.selections.toList = play.selections.toList ++ Happening.chosen told
  skipReveal : next.skipReveal = play.skipReveal
  laid : next.stage.MenuLaid
  text : next.text = text

/-- Nothing has been told. -/
theorem Heard.silent {next : Playthrough} (htale : next.tale = play.tale)
    (htranscript : next.transcript = play.transcript)
    (hselections : next.selections = play.selections)
    (hskip : next.skipReveal = play.skipReveal) (hl : next.stage.MenuLaid) :
    Heard play next play.tale [] next.text where
  tale := htale
  transcript := (congrArg Array.toList htranscript).trans (List.append_nil _).symm
  selections := (congrArg Array.toList hselections).trans (List.append_nil _).symm
  skipReveal := hskip
  laid := hl
  text := rfl

theorem step_heard (play : Playthrough) (hl : play.stage.MenuLaid) :
    Heard play play.step.2 ⟨play.vm.step.next, play.picks⟩ (Action.happenings play.vm.step.actions)
      ((Action.texts play.vm.step.actions).foldl Reveal.setText play.text) where
  tale := by rw [step_eq]; rfl
  transcript := Happening.said_happenings _ ▸ step_transcript play
  selections := by
    rw [Happening.chosen_happenings, List.append_nil]
    rfl
  skipReveal := rfl
  laid := by rw [step_eq]; exact hl.performAll _
  text := by rw [step_eq]; exact Stage.text_performAll ..

-- ---------------------------------------------------------------------------
-- Frames
-- ---------------------------------------------------------------------------

def FrameResult.stop? : FrameResult → Option Stop
  | .running => none
  | .finished => some .over
  | .failed error => some (.refused error)

/-- Text is on show that is not ready in the next frame. -/
def Waits (play : Playthrough) : Prop :=
  play.vm.suspend = .waitingForInput ∧ play.text.update.isReady = false

theorem text_updateStage (play : Playthrough) : play.updateStage.text = play.text.update :=
  play.stage.text_update

theorem laid_updateStage (hl : play.stage.MenuLaid) : play.updateStage.stage.MenuLaid :=
  hl.of_eq play.stage.menu_update

theorem Sound.updateStage (hs : play.Sound) : play.updateStage.Sound :=
  ⟨hs.unpicked, laid_updateStage hs.laid⟩

theorem frame_of_refused (h : play.updateStage.applyInput = .error error) :
    play.frame = (.failed error, play.updateStage) := by
  simp only [frame, h]

theorem frame_of_fed (h : play.updateStage.applyInput = .ok fed) :
    play.frame.1.stop? = (if fed.vm.step.running then none else some .over) ∧
      play.frame.2 = fed.step.2 := by
  have hrunning : fed.step.1 = fed.vm.step.running := by rw [step_eq]
  rw [← hrunning]
  unfold frame
  simp only [h]
  rcases fed.step with ⟨_ | _, next⟩ <;> exact ⟨rfl, rfl⟩

/-- Nothing is told in a frame that waits. A host that may skip has the text
completed. -/
theorem frame_of_waits (hs : play.Sound) (h : play.Waits) :
    play.frame.1.stop? = none ∧ Heard play play.frame.2 play.tale []
      (if play.skipReveal then play.text.update.complete else play.text.update) := by
  obtain ⟨hv, hr⟩ := h
  rw [← text_updateStage] at hr ⊢
  have hv' : play.updateStage.vm.suspend = .waitingForInput := hv
  have hready : play.updateStage.stage.isTextReady = false := hr
  have hl := laid_updateStage hs.laid
  cases hskip : play.skipReveal with
  | true =>
    let completed : Playthrough :=
      { play with session := ⟨play.vm, play.updateStage.stage.completeText⟩ }
    have hcompleted : completed.vm.suspend = .waitingForInput := hv
    have hinput : play.updateStage.applyInput = .ok completed := by
      rw [applyInput, hv']
      exact (if_pos (by simp [updateStage, hskip])).trans (give_click_early hv' hr)
    obtain ⟨hstop, hnext⟩ := frame_of_fed hinput
    rw [Interpreter.step_of_waitingForInput hcompleted] at hstop
    rw [hnext, step_of_waitingForInput hcompleted]
    exact ⟨hstop, .silent rfl rfl rfl rfl hl⟩
  | false =>
    have hinput : play.updateStage.applyInput = .ok play.updateStage := by
      rw [applyInput, hv']
      exact if_neg (by simp [hready, show play.updateStage.skipReveal = false from hskip])
    obtain ⟨hstop, hnext⟩ := frame_of_fed hinput
    rw [Interpreter.step_of_waitingForInput hv'] at hstop
    rw [hnext, step_of_waitingForInput hv']
    exact ⟨hstop, .silent rfl rfl rfl rfl hl⟩

/-- Any other frame is a turn of the tale. -/
theorem frame_of_not_waits (hs : play.Sound) (h : ¬play.Waits) :
    play.frame.1.stop? = play.tale.turn.stop ∧
      Heard play play.frame.2 play.tale.turn.next play.tale.turn.told
        ((Happening.said play.tale.turn.told).foldl Reveal.setText play.text.update) := by
  have hl := laid_updateStage hs.laid
  have hinput : play.updateStage.applyInput = play.tale.answer.map play.updateStage.answered := by
    refine applyInput_eq hs.updateStage fun hv => ?_
    rw [text_updateStage]
    simpa [Waits, show play.vm.suspend = .waitingForInput from hv] using h
  unfold Tale.turn
  cases hanswer : play.tale.answer with
  | error error =>
    rw [hanswer] at hinput
    rw [frame_of_refused hinput, ← text_updateStage]
    exact ⟨rfl, .silent rfl rfl rfl rfl hl⟩
  | ok answered =>
    rw [hanswer] at hinput
    obtain ⟨hstop, hnext⟩ := frame_of_fed hinput
    have hheard := step_heard (play.updateStage.answered answered) hl
    rw [hnext]
    refine ⟨hstop, hheard.tale, ?_, ?_, hheard.skipReveal, hheard.laid, ?_⟩
    · rw [hheard.transcript, Happening.said_append, Tale.said_choosing]
      rfl
    · rw [hheard.selections, Happening.chosen_append, ← List.append_assoc]
      exact congrArg (· ++ _) Array.toList_append
    · rw [hheard.text, Happening.said_append, Tale.said_choosing, Happening.said_happenings,
        ← text_updateStage]
      rfl

theorem Sound.frame (hs : play.Sound) : play.frame.2.Sound := by
  by_cases hw : play.Waits
  · have hheard := (frame_of_waits hs hw).2
    exact ⟨hheard.tale.symm ▸ hs.unpicked, hheard.laid⟩
  · have hheard := (frame_of_not_waits hs hw).2
    exact ⟨hheard.tale.symm ▸ Tale.turn_unpicked hs.unpicked, hheard.laid⟩

theorem frame_skipReveal (hs : play.Sound) : play.frame.2.skipReveal = play.skipReveal := by
  by_cases hw : play.Waits
  · exact (frame_of_waits hs hw).2.skipReveal
  · exact (frame_of_not_waits hs hw).2.skipReveal

theorem frame_delay (hs : play.Sound) : play.frame.2.text.delay = play.text.delay := by
  by_cases hw : play.Waits
  · rw [(frame_of_waits hs hw).2.text]
    split <;> exact play.text.delay_update
  · rw [(frame_of_not_waits hs hw).2.text, Reveal.delay_foldl_setText, Reveal.delay_update]

end

end Playthrough

end VisualNovel

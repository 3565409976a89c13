import VisualNovel.Proofs.Stage.Acts

/-!
# Reading a text to its end

The text a story waits to have read is the one on the stage, whatever has
happened before (`Reads.act`). A click that resumes the story finds all of it
shown; a click that comes too early shows the rest, and the next one resumes
(`Session.texts_read_in_full`).
-/

namespace VisualNovel

/-- Neither clicks the text away nor loads another program. -/
def Act.Spares (act : Act) : Prop :=
  act ≠ .host (.input .click) ∧ ¬act.IsLoad

namespace Session

/-- A text waited for is the text on the stage, and is ready when all of it is
shown. -/
structure Reads (session : Session Stage) : Prop where
  exact : session.display.scene.text.Exact
  current : session.vm.suspend = .waitingForInput →
    session.vm.currentText = some session.display.scene.text.text

section
variable {session : Session Stage}

theorem reads_start (options : Options) (config : Config) (files : Files) :
    (start options (Stage.ofConfig config files)).Reads :=
  ⟨.blank config.text.charDelay, nofun⟩

theorem Reads.step (h : session.Reads) : (session.act (.host .step)).Reads := by
  have htext : (session.act (.host .step)).display.scene.text =
      (Action.texts session.vm.step.actions).foldl Reveal.setText session.display.scene.text := by
    rw [act_step]
    exact Stage.text_performAll ..
  have hvm : (session.act (.host .step)).vm = session.vm.step.next := by rw [act_step]
  refine ⟨htext ▸ h.exact.foldl_setText _, fun hw => ?_⟩
  rw [hvm] at hw
  rw [hvm, htext]
  by_cases hv : session.vm.suspend = .waitingForInput
  · rw [Interpreter.step_of_waitingForInput hv]
    exact h.current hv
  · -- What is waited for now has been shown in this very step.
    have hshows := Interpreter.step_shows hv
    generalize Action.texts session.vm.step.actions = shown at hshows ⊢
    cases hshows with
    | text _ hcurrent => exact hcurrent
    | nothing hnot => exact absurd hw hnot

theorem Reads.input (h : session.Reads) (given : Input) :
    (session.act (.host (.input given))).Reads := by
  obtain ⟨outcome, htakes, hdisplay⟩ := session.takes_act given
  generalize session.act (.host (.input given)) = next at htakes hdisplay ⊢
  obtain ⟨vm, display⟩ := next
  cases htakes with
  | resume _ _ => exact ⟨hdisplay ▸ h.exact, nofun⟩
  | reveal _ _ =>
    cases hdisplay
    exact ⟨.complete _, h.current⟩
  | hover hv _ | select hv _ => exact ⟨hdisplay ▸ h.exact, fun hw => nomatch hv.symm.trans hw⟩
  | ignored =>
    cases hdisplay
    exact h

theorem Reads.update (h : session.Reads) : (session.act .update).Reads := by
  have htext : (session.act .update).display.scene.text = session.display.scene.text.update :=
    session.display.text_update
  refine ⟨htext ▸ h.exact.update, fun hw => ?_⟩
  rw [htext, Reveal.text_update]
  exact h.current hw

theorem Reads.act (h : session.Reads) (act : Act) : (session.act act).Reads := by
  cases act with
  | host op =>
    cases op with
    | step => exact h.step
    | input given => exact h.input given
    | load program => exact ⟨h.exact, nofun⟩
  | update => exact h.update
  | completeText => exact ⟨.complete _, h.current⟩

-- ---------------------------------------------------------------------------
-- Clicks
-- ---------------------------------------------------------------------------

/-- The next click resumes the story. -/
structure Awaits (session : Session Stage) : Prop where
  suspend : session.vm.suspend = .waitingForInput
  ready : session.display.scene.text.isReady = true

theorem click_waiting (hv : session.vm.suspend = .waitingForInput) :
    session.operate Stage.sink (.input .click) =
      if session.display.scene.text.isReady then
        ⟨{ session with vm := { session.vm with suspend := .running } }, .answered .resumed, [], []⟩
      else
        ⟨{ session with display := session.display.completeText }, .answered .revealCompleted,
          [], []⟩ := by
  have hclick : session.vm.input session.display.scene.text.isReady .click = _ :=
    Interpreter.input_click hv
  have hready : Stage.sink.isTextReady session.display = session.display.scene.text.isReady := rfl
  rw [operate, input_eq_map, hready, hclick]
  cases session.display.scene.text.isReady <;> rfl

theorem click_ignored (hv : session.vm.suspend ≠ .waitingForInput) :
    session.operate Stage.sink (.input .click) = ⟨session, .answered .ignored, [], []⟩ := by
  rw [operate, input_eq_map, Interpreter.input_click_ignored hv]
  rfl

theorem Awaits.act {act : Act} (h : session.Awaits) (hact : act.Spares) :
    (session.act act).Awaits := by
  obtain ⟨hv, hr⟩ := h
  cases act with
  | host op =>
    cases op with
    | step =>
      have hstep := Interpreter.step_of_waitingForInput hv
      have hnext : session.act (.host .step) = session := by
        simp only [act_step, hstep, DisplaySink.performAll]
      rw [hnext]
      exact ⟨hv, hr⟩
    | input given =>
      obtain ⟨outcome, htakes, hdisplay⟩ := session.takes_act given
      generalize session.act (.host (.input given)) = next at htakes hdisplay ⊢
      obtain ⟨vm, display⟩ := next
      cases htakes with
      | resume _ _ | reveal _ _ => exact absurd rfl hact.1
      | hover hc _ | select hc _ => cases hc.symm.trans hv
      | ignored =>
        cases hdisplay
        exact ⟨hv, hr⟩
    | load program => exact absurd ⟨program, rfl⟩ hact.2
  | update =>
    refine ⟨hv, ?_⟩
    have htext : (session.act .update).display.scene.text = session.display.scene.text.update :=
      session.display.text_update
    rw [htext]
    exact Reveal.isReady_update _ hr
  | completeText => exact ⟨hv, rfl⟩

end

/-- A click on a text that is waited for resumes the story or completes the
text. Where it resumes the story, all of the text was on show, and it was the
story's current one; where it completes the text, the story stays as it is, and
the next click resumes it, whatever lies between but a new program. -/
theorem texts_read_in_full (options : Options) (config : Config) (files : Files)
    (acts : List Act) :
    let session := (start options (Stage.ofConfig config files)).afterActs acts
    let clicked := session.operate Stage.sink (.input .click)
    (session.vm.suspend = .waitingForInput ↔
      clicked.reply = .answered .resumed ∨ clicked.reply = .answered .revealCompleted) ∧
    (clicked.reply = .answered .resumed →
      let text := clicked.next.display.scene.text
      text.visible = text.text ∧ clicked.next.vm.currentText = some text.text) ∧
    (clicked.reply = .answered .revealCompleted →
      clicked.next.vm = session.vm ∧
      ∀ between : List Act, (∀ act ∈ between, act.Spares) →
        ((clicked.next.afterActs between).operate Stage.sink (.input .click)).reply =
          .answered .resumed) := by
  intro session clicked
  have hreads : session.Reads :=
    afterActs_preserve (fun act _ _ h => h.act act) (reads_start options config files)
  by_cases hv : session.vm.suspend = .waitingForInput
  · have hclicked : clicked = _ := click_waiting hv
    cases hr : session.display.scene.text.isReady with
    | true =>
      rw [hr, if_pos rfl] at hclicked
      rw [hclicked]
      refine ⟨iff_of_true hv (.inl rfl), fun _ => ?_, fun h => nomatch h⟩
      exact ⟨hreads.exact.visible hr, hreads.current hv⟩
    | false =>
      rw [hr, if_neg Bool.false_ne_true] at hclicked
      rw [hclicked]
      refine ⟨iff_of_true hv (.inr rfl), ?_, fun _ => ⟨rfl, fun between hbetween => ?_⟩⟩
      · exact fun h => nomatch h
      have hawaits : Awaits { session with display := session.display.completeText } := ⟨hv, rfl⟩
      obtain ⟨hv', hr'⟩ := afterActs_preserve (fun act hact _ h => h.act (hbetween act hact)) hawaits
      rw [click_waiting hv', hr']
      rfl
  · have hclicked : clicked = _ := click_ignored hv
    rw [hclicked]
    exact ⟨iff_of_false hv (by simp), nofun, nofun⟩

/-- One of three characters is shown when the first click comes. -/
theorem texts_read_in_full_earlyClick :
    let config : Config := { text := { charDelay := 2 } }
    let acts : List Act := [.host (.load ⟨[⟨1, "早上好"⟩]⟩), .host .step, .update, .update]
    let session := (start config.story (Stage.ofConfig config {})).afterActs acts
    let clicked := session.operate Stage.sink (.input .click)
    session.display.scene.text.visible = "早" ∧
      clicked.reply = .answered .revealCompleted ∧ clicked.next.vm = session.vm ∧
      ((clicked.next.afterActs [.update, .host .step]).operate Stage.sink (.input .click)).reply =
        .answered .resumed := by
  intro config acts session clicked
  have hvisible : session.display.scene.text.visible = "早" := by decide +kernel
  have hclicked : clicked.reply = .answered .revealCompleted := by decide +kernel
  obtain ⟨-, -, hearly⟩ := texts_read_in_full config.story config {} acts
  obtain ⟨hvm, hnext⟩ := hearly hclicked
  refine ⟨hvisible, hclicked, hvm, hnext [.update, .host .step] ?_⟩
  rintro act hact
  simp only [List.mem_cons, List.not_mem_nil, or_false] at hact
  obtain rfl | rfl := hact <;> exact ⟨nofun, nofun⟩

end Session

end VisualNovel

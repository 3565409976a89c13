import VisualNovel.Display.Recording
import VisualNovel.Proofs.Session.History

/-!
# A display is heard through its readiness alone

Two displays of any kind may refuse and remember what they like. Under the same
operations they are sent the same calls and their interpreters go through the
same states, as long as they agree on whether the text is ready whenever a click
asks (`moments_eq_of_agree`).

Both are called in the midst of every move: in a command, when a menu is shown or
closed, on every line of a chain. That nothing further on depends on what they answer
there is shown form by form in `Session.step_eq_carryOut`, and by induction for the
chain; here only the clicks are left.
-/

namespace VisualNovel

/-- Readiness matters to a click on waiting text, and to nothing else. -/
theorem Interpreter.operate_congr_ready (vm : Interpreter) (op : Operation) (r r' : Bool)
    (h : op = .input .click → vm.suspend = .waitingForInput → r = r') :
    vm.operate r op = vm.operate r' op := by
  cases op with
  | step => rfl
  | load program => rfl
  | input given =>
    cases given with
    | click =>
      by_cases hv : vm.suspend = .waitingForInput
      · rw [h rfl hv]
      · simp only [operate, input_click_ignored hv]
    | hover _ | select _ =>
      by_cases hv : vm.suspend = .waitingForChoice
      · simp only [operate, input_hover hv, input_select hv]
      · simp only [operate, input_hover_ignored hv, input_select_refused hv]

namespace Session

theorem after_display (sink : DisplaySink σ) (session : Session σ) (ops : List Operation) :
    (session.after sink ops).display =
      sink.replay session.display ((session.moments sink ops).flatMap Moment.calls) := by
  induction ops generalizing session with
  | nil => rfl
  | cons op ops ih =>
    simp only [after, moments, List.flatMap_cons, DisplaySink.replay, List.foldl_append, ih,
      operate_display]

/-- The two displays give the same answer at every click on waiting text. -/
def AgreeReady (left : DisplaySink σ) (right : DisplaySink τ) (s : Session σ) (t : Session τ) :
    List Operation → Prop
  | [] => True
  | op :: ops =>
    (op = .input .click → s.vm.suspend = .waitingForInput →
      left.isTextReady s.display = right.isTextReady t.display) ∧
    AgreeReady left right (s.operate left op).next (t.operate right op).next ops

theorem operate_moment_eq (left : DisplaySink σ) (right : DisplaySink τ) {s : Session σ}
    {t : Session τ} (hvm : s.vm = t.vm) (op : Operation)
    (h : op = .input .click → s.vm.suspend = .waitingForInput →
      left.isTextReady s.display = right.isTextReady t.display) :
    (s.operate left op).moment = (t.operate right op).moment := by
  rw [operate_moment, operate_moment, ← hvm]
  exact Interpreter.operate_congr_ready s.vm op _ _ h

theorem moments_eq (left : DisplaySink σ) (right : DisplaySink τ) {s : Session σ}
    {t : Session τ} (hvm : s.vm = t.vm) (h : AgreeReady left right s t ops) :
    s.moments left ops = t.moments right ops := by
  induction ops generalizing s t with
  | nil => rfl
  | cons op ops ih =>
    obtain ⟨hready, hrest⟩ := h
    have hm := operate_moment_eq left right hvm op hready
    simp only [moments, hm]
    exact congrArg _ (ih (congrArg Moment.vm hm) hrest)

/-- A moment holds the reply, the interpreter and what was asked for; and the
calls of the moments are all that ever moves a display. -/
theorem moments_eq_of_agree (left : DisplaySink σ) (right : DisplaySink τ) (s : Session σ)
    (t : Session τ) (ops : List Operation) (hvm : s.vm = t.vm)
    (h : AgreeReady left right s t ops) :
    s.moments left ops = t.moments right ops ∧
      let calls := (s.moments left ops).flatMap Moment.calls
      (s.after left ops).display = left.replay s.display calls ∧
        (t.after right ops).display = right.replay t.display calls := by
  have hm := moments_eq left right hvm h
  refine ⟨hm, after_display left s ops, ?_⟩
  rw [hm]
  exact after_display right t ops

/-- The first display refuses nothing here, the second every image. -/
theorem moments_eq_of_agree_noLayers :
    let s : Session RecordingDisplay := start {} {}
    let t : Session RecordingDisplay := start {} { layerCount := 0 }
    let program : Program :=
      ⟨[⟨1, "@bg 0 room.png"⟩, ⟨2, "Hello"⟩, ⟨3, "@choice A -> a"⟩, ⟨4, ":a"⟩]⟩
    let ops : List Operation :=
      [.load program, .step, .step, .input .click, .step, .input (.select 0), .step]
    s.vm = t.vm ∧ AgreeReady RecordingDisplay.sink RecordingDisplay.sink s t ops ∧
      (s.after RecordingDisplay.sink ops).display.commands.size = 4 ∧
      (t.after RecordingDisplay.sink ops).display.commands.size = 3 ∧
      s.moments RecordingDisplay.sink ops = t.moments RecordingDisplay.sink ops := by
  intro s t program ops
  have h : AgreeReady RecordingDisplay.sink RecordingDisplay.sink s t ops :=
    ⟨nofun, nofun, nofun, fun _ _ => by decide +kernel, nofun, nofun, nofun, trivial⟩
  exact ⟨rfl, h, by decide +kernel, by decide +kernel,
    (moments_eq_of_agree RecordingDisplay.sink RecordingDisplay.sink s t ops rfl h).1⟩

end Session

end VisualNovel

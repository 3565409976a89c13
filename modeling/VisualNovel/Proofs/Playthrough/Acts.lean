import VisualNovel.Proofs.Playthrough.Timing
import VisualNovel.Proofs.Stage.Acts

/-!
# What a playthrough does to its story

A frame gives the stage its frame, gives the inputs a player would and makes a
step (`Playthrough.session_frame`). It never loads, so after every frame the
stage shows what the story stands at (`Playthrough.mirrors_story`).
-/

namespace VisualNovel

namespace Playthrough

/-- The inputs of one frame, for a stage that has moved on. -/
def inputs (play : Playthrough) : List Input :=
  match play.vm.suspend with
  | .waitingForInput => if play.skipReveal || play.stage.isTextReady then [.click] else []
  | .waitingForChoice =>
    if play.vm.offer.hasSelection then []
    else
      let index := play.pointedAt (play.picks.headD 0)
      [.hover index, .select index]
  | .running => []

/-- All that happens to the story in one frame. -/
def acts (play : Playthrough) : List Act :=
  .update :: play.updateStage.inputs.map (.host <| .input ·) ++ [.host .step]

section
variable {play : Playthrough}

theorem give_eq_ok (h : play.give given = .ok next) :
    next = { play with session := play.session.act (.host (.input given)) } := by
  cases hinput : play.session.input Stage.sink given with
  | error _ => simp [give, hinput, Except.map] at h
  | ok done =>
    rw [give, hinput] at h
    cases h
    rw [play.session.act_input hinput]

theorem choose_eq_ok (h : play.choose = .ok fed) :
    let index := play.pointedAt (play.picks.headD 0)
    fed.session = play.session.afterActs
        [.host (.input (.hover index)), .host (.input (.select index))] ∧
      fed.transcript = play.transcript ∧ fed.log = play.log := by
  intro index
  let rest : Playthrough := { play with picks := play.picks.tail }
  change ((rest.give (.hover index)).bind _) = _ at h
  cases hhover : rest.give (.hover index) with
  | error _ => simp [hhover, Except.bind] at h
  | ok hovering =>
    rw [hhover] at h
    change ((hovering.give (.select index)).bind _) = _ at h
    cases hselect : hovering.give (.select index) with
    | error _ => simp [hselect, Except.bind] at h
    | ok picked =>
      rw [hselect] at h
      cases h
      cases give_eq_ok hhover
      cases give_eq_ok hselect
      exact ⟨rfl, rfl, rfl⟩

theorem applyInput_eq_ok (h : play.applyInput = .ok fed) :
    fed.session = play.session.afterActs (play.inputs.map (.host <| .input ·)) ∧
      fed.transcript = play.transcript ∧ fed.log = play.log := by
  unfold applyInput at h
  unfold inputs
  cases hv : play.vm.suspend with
  | running =>
    rw [hv] at h
    cases h
    exact ⟨rfl, rfl, rfl⟩
  | waitingForInput =>
    simp only [hv] at h ⊢
    split at h
    · cases give_eq_ok h
      rw [if_pos ‹_›]
      exact ⟨rfl, rfl, rfl⟩
    · cases h
      rw [if_neg ‹_›]
      exact ⟨rfl, rfl, rfl⟩
  | waitingForChoice =>
    simp only [hv] at h ⊢
    split at h
    · cases h
      rw [if_pos ‹_›]
      exact ⟨rfl, rfl, rfl⟩
    · rw [if_neg ‹_›]
      exact choose_eq_ok h

-- ---------------------------------------------------------------------------
-- Frames
-- ---------------------------------------------------------------------------

theorem exists_fed (h : ∀ error, play.frame.1 ≠ .failed error) :
    ∃ fed, play.updateStage.applyInput = .ok fed := by
  cases hfed : play.updateStage.applyInput with
  | error error => exact absurd (congrArg Prod.fst (frame_of_refused hfed)) (h error)
  | ok fed => exact ⟨fed, rfl⟩

theorem session_frame (h : ∀ error, play.frame.1 ≠ .failed error) :
    play.frame.2.session = play.session.afterActs play.acts := by
  obtain ⟨fed, hfed⟩ := exists_fed h
  have hsession := (applyInput_eq_ok hfed).1
  rw [(frame_of_fed hfed).2, acts, Session.afterActs, List.foldl_append]
  exact congrArg (Session.act · (.host .step)) hsession

/-- Of all that happens in a frame, only its step has the stage execute commands. -/
theorem commands_acts (h : play.updateStage.applyInput = .ok fed) :
    play.session.commands play.acts = Action.commands fed.vm.step.actions := by
  have hsession := (applyInput_eq_ok h).1
  have hinputs := play.updateStage.session.commands_inputs play.updateStage.inputs
  rw [acts, List.cons_append, Session.commands, Session.commands_append]
  change [] ++ (play.updateStage.session.commands _ ++
    (play.updateStage.session.afterActs _).commands [.host .step]) = _
  rw [hinputs, ← hsession, Session.commands, Session.commandsIn_step]
  exact List.append_nil _

end

/-- Some frames have been played, of which none failed, and all of this has
happened in them. -/
inductive Played (first : Playthrough) : List Act → Playthrough → Prop
  | start : Played first [] first
  | frame {acts : List Act} : Played first acts play → (∀ error, play.frame.1 ≠ .failed error) →
      Played first (acts ++ play.acts) play.frame.2

section
variable {first : Playthrough} {acts : List Act}

theorem Played.session (h : Played first acts play) :
    play.session = first.session.afterActs acts := by
  induction h with
  | start => rfl
  | frame _ hgo ih =>
    rw [session_frame hgo, ih, Session.afterActs, Session.afterActs, Session.afterActs,
      List.foldl_append]

theorem not_isLoad_of_mem_acts {act : Act} {play : Playthrough} (h : act ∈ play.acts) : ¬act.IsLoad := by
  rintro ⟨program, rfl⟩
  simp [acts] at h

theorem Played.not_isLoad {act : Act} (h : Played first acts play) (hact : act ∈ acts) :
    ¬act.IsLoad := by
  induction h with
  | start => cases hact
  | frame _ _ ih => exact (List.mem_append.mp hact).elim ih not_isLoad_of_mem_acts

-- ---------------------------------------------------------------------------
-- The stage and the story
-- ---------------------------------------------------------------------------

theorem mirrors_opening (program : Program) (config : Config) (files : Files) (picks : List Nat)
    (skipReveal : Bool) :
    (opening program config files picks skipReveal).session.Mirrors config.window.width := by
  refine Eq.trans ?_ (Interpreter.words_of_not_choosing ?_ _).symm
  · rfl
  · exact nofun

/-- After every frame the menu on the stage is the one the story waits for, laid
out, and none when it waits for none; and the text on the stage is the story's. -/
theorem mirrors_story {picks : List Nat} (hstart : start config files picks skip = .ok first)
    (hplayed : first.Played acts play) :
    play.stage.scene.menu =
        (if play.vm.suspend = .waitingForChoice then
          some (.layout play.vm.offer.choices config.window.width)
        else none) ∧
      play.stage.scene.text.text = play.vm.currentText.getD "" := by
  obtain ⟨program, -, rfl⟩ := eq_opening_of_start hstart
  have hmirrors : play.session.Mirrors config.window.width := by
    rw [hplayed.session]
    exact Session.afterActs_preserve (P := (·.Mirrors config.window.width))
      (fun act hact _ h => h.act (hplayed.not_isLoad hact)) (mirrors_opening ..)
  exact ⟨congrArg Words.menu hmirrors, congrArg Words.text hmirrors⟩

end

/-- A menu is opened while the text before it is still on show. -/
theorem mirrors_story_menuBelowText :
    let files : Files := { entries := [(["first.rgo"],
      some "往哪边？\n@choice 走 -> a 留 -> b\n:a\n走了\n:b\n留下".toUTF8)] }
    let config : Config := { assetsRoot := "", startScript := "first.rgo" }
    ∃ first acts play, start config files [1] true = .ok first ∧ first.Played acts play ∧
      play.vm.suspend = .waitingForChoice ∧
      play.stage.scene.menu = some (.layout [⟨"走", "a"⟩, ⟨"留", "b"⟩] 1280) ∧
      play.stage.scene.text.text = "往哪边？" := by
  intro files config
  let program : Program :=
    ⟨[⟨1, "往哪边？"⟩, ⟨2, "@choice 走 -> a 留 -> b"⟩, ⟨3, ":a"⟩, ⟨4, "走了"⟩, ⟨5, ":b"⟩,
      ⟨6, "留下"⟩]⟩
  have hload : (Program.load files config.startScriptPath).toOption = some program := by
    decide +kernel
  have hstart := start_eq_opening hload [1] true
  let first := opening program config files [1] true
  have said : first.frame.1 = .running := by decide +kernel
  have completed : first.frame.2.frame.1 = .running := by decide +kernel
  have resumed : first.frame.2.frame.2.frame.1 = .running := by decide +kernel
  have hplayed : first.Played _ first.frame.2.frame.2.frame.2 :=
    .frame (.frame (.frame .start (by simp [said])) (by simp [completed])) (by simp [resumed])
  have hchoosing : first.frame.2.frame.2.frame.2.vm.suspend = .waitingForChoice := by
    decide +kernel
  have hoffer : first.frame.2.frame.2.frame.2.vm.offer.choices = [⟨"走", "a"⟩, ⟨"留", "b"⟩] := by
    decide +kernel
  have hcurrent : first.frame.2.frame.2.frame.2.vm.currentText = some "往哪边？" := by
    decide +kernel
  obtain ⟨hmenu, htext⟩ := mirrors_story hstart hplayed
  rw [if_pos hchoosing, hoffer] at hmenu
  rw [hcurrent] at htext
  exact ⟨_, _, _, hstart, hplayed, hchoosing, hmenu, htext⟩

end Playthrough

end VisualNovel

import VisualNovel.Proofs.Playthrough.Acts

/-!
# Pointing at the option listed

The buttons of a menu stand apart, whatever they say and however wide the screen is, so a point
hits the button it lies in. A playthrough points at the middle of a button and therefore takes
the option it has listed (`Playthrough.takes_listed`). Coordinates are integers without bounds.
-/

namespace VisualNovel.Playthrough

section
variable {first play : Playthrough} {acts : List Act}

theorem Played.sound (h : Played first acts play) (hs : first.Sound) : play.Sound := by
  induction h with
  | start => exact hs
  | frame _ _ ih => exact ih.frame

/-- The frame that finds a menu open picks the option listed for it. -/
theorem Sound.applyInput_listed (hs : play.Sound) (hv : play.vm.suspend = .waitingForChoice)
    (hlisted : play.vm.offer.choices[play.picks.headD 0]? = some choice) :
    ∃ fed, play.updateStage.applyInput = .ok fed ∧
      fed.vm.offer = play.vm.offer.pick (play.picks.headD 0) ∧
      fed.selections = play.selections.push choice.text := by
  have hinput : play.updateStage.applyInput = play.tale.answer.map play.updateStage.answered :=
    applyInput_of_choosing hs.updateStage hv
  rw [Tale.answer_of_choice hv hlisted] at hinput
  refine ⟨_, hinput, rfl, ?_⟩
  change play.selections.append (Happening.chosen play.tale.choosing).toArray = _
  rw [Tale.chosen_choosing hv hlisted]
  rfl

/-- The buttons of a menu stand one above the other and have no point in common, so a point hits
the button it lies in, borders included, and the middle of a button hits that button. In a
playthrough, whenever the story waits for a pick and the menu has the option listed, that is the
option picked. -/
theorem takes_listed :
    (∀ (choices : List Choice) (screenWidth : Nat),
      let menu := Menu.layout choices screenWidth
      menu.rects.length = choices.length ∧
      menu.rects.Pairwise Rect.Above ∧
      menu.rects.Pairwise Rect.Apart ∧
      (∀ x y index, menu.hitTest x y = some index ↔
        ∃ rect, menu.rects[index]? = some rect ∧ rect.contains x y = true) ∧
      (∀ index rect, menu.rects[index]? = some rect →
        menu.hitTest rect.centre.1 rect.centre.2 = some index)) ∧
    ∀ (config : Config) (files : Files) (picks : List Nat) (skip : Bool)
      (first play : Playthrough) (acts : List Act) (choice : Choice),
      start config files picks skip = .ok first → first.Played acts play →
      play.vm.suspend = .waitingForChoice →
      play.vm.offer.choices[play.picks.headD 0]? = some choice →
      ∃ fed, play.updateStage.applyInput = .ok fed ∧
        fed.vm.offer.selected = some (play.picks.headD 0) ∧
        fed.selections = play.selections.push choice.text := by
  refine ⟨fun choices screenWidth => ⟨Menu.length_buttonsFrom .., Menu.buttonsFrom_above ..,
    Menu.layout_apart .., fun x y index => Menu.hitTest_eq_some_iff (Menu.layout_apart ..),
    fun index rect => Menu.hitTest_centre⟩, ?_⟩
  intro config files picks skip first play acts choice hstart hplayed hv hlisted
  obtain ⟨program, -, rfl⟩ := eq_opening_of_start hstart
  have hs : play.Sound := hplayed.sound (sound_opening ..)
  obtain ⟨fed, hinput, hpicked, hselections⟩ := hs.applyInput_listed hv hlisted
  exact ⟨fed, hinput, congrArg Offer.selected hpicked, hselections⟩

end

/-- Every button is wider than the screen. -/
theorem takes_listed_narrowScreen :
    let files : Files := { entries := [(["first.rgo"],
      some "@choice 走 -> a 一直沿着河边走下去 -> b 留 -> a\n:a\n走了\n:b\n留下".toUTF8)] }
    let config : Config := { assetsRoot := "", startScript := "first.rgo", window.width := 20 }
    ∃ first acts play fed, start config files [2] false = .ok first ∧ first.Played acts play ∧
      play.vm.suspend = .waitingForChoice ∧
      play.stage.scene.menu.map (·.rects) =
        some [⟨-8, 100, 36, 34⟩, ⟨-72, 144, 164, 34⟩, ⟨-8, 188, 36, 34⟩] ∧
      play.updateStage.applyInput = .ok fed ∧ fed.vm.offer.selected = some 2 ∧
      fed.selections = #["留"] := by
  intro files config
  let program : Program :=
    ⟨[⟨1, "@choice 走 -> a 一直沿着河边走下去 -> b 留 -> a"⟩, ⟨2, ":a"⟩, ⟨3, "走了"⟩, ⟨4, ":b"⟩,
      ⟨5, "留下"⟩]⟩
  have hload : (Program.load files config.startScriptPath).toOption = some program := by
    decide +kernel
  have hstart := start_eq_opening hload [2] false
  let first := opening program config files [2] false
  let play := first.frame.2
  have hframe : first.frame.1 = .running ∧ play.picks = [2] ∧ play.selections = #[] := by
    decide +kernel
  obtain ⟨hrunning, hpicks, hnone⟩ := hframe
  have hplayed : first.Played _ play := .frame .start (by simp [hrunning])
  have hmenu : play.vm.suspend = .waitingForChoice ∧
      play.vm.offer.choices[2]? = some ⟨"留", "a"⟩ ∧
      play.stage.scene.menu.map (·.rects) =
        some [⟨-8, 100, 36, 34⟩, ⟨-72, 144, 164, 34⟩, ⟨-8, 188, 36, 34⟩] := by
    decide +kernel
  obtain ⟨hchoosing, hlast, hrects⟩ := hmenu
  have hlisted : play.vm.offer.choices[play.picks.headD 0]? = some ⟨"留", "a"⟩ := hpicks ▸ hlast
  obtain ⟨fed, hinput, hpicked, hselections⟩ :=
    takes_listed.2 config files [2] false first play _ _ hstart hplayed hchoosing hlisted
  rw [hpicks] at hpicked
  rw [hnone] at hselections
  exact ⟨first, _, play, fed, hstart, hplayed, hchoosing, hrects, hinput, hpicked, hselections⟩

end VisualNovel.Playthrough

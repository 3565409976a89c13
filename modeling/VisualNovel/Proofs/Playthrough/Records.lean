import VisualNovel.Proofs.Playthrough.Acts

/-!
# What a playthrough keeps on record

The transcript is what the stage was told to show, and there is a selection for
every menu it was told to take away, made by the pick listed for that menu. A
frame fails at a pick that is not on the menu, and at nothing else
(`Playthrough.records_exact`).
-/

namespace VisualNovel

namespace Playthrough

section
variable {play : Playthrough}

-- ---------------------------------------------------------------------------
-- The input of a frame
-- ---------------------------------------------------------------------------

/-- What the input of a frame leaves for the step, and what it records: a pick is
used up for a menu, and will be delivered. -/
structure Fed (play fed : Playthrough) : Prop where
  picks : fed.picks = play.picks.drop play.vm.menu?.toList.length
  selections : fed.selections.toList.map some =
    play.selections.toList.map some ++
      play.vm.menu?.toList.map fun menu => menu[play.picks.headD 0]?.map (·.text)
  delivers : fed.vm.suspend = .waitingForChoice →
    ∃ label rest, fed.vm.offer.poll = (some label, rest)
  menu : fed.vm.menu? = play.vm.menu?

theorem fed_of_not_choosing (hv : play.vm.suspend ≠ .waitingForChoice) :
    ∃ fed, play.applyInput = .ok fed ∧ Fed play fed := by
  have hmenu := Interpreter.menu?_of_not_choosing hv
  have idle {fed : Playthrough} (hpicks : fed.picks = play.picks)
      (hselections : fed.selections = play.selections)
      (hfed : fed.vm.suspend ≠ .waitingForChoice) : Fed play fed := by
    refine ⟨?_, ?_, fun h => absurd h hfed, ?_⟩
    · simp [hmenu, hpicks]
    · simp [hmenu, hselections]
    · rw [hmenu, Interpreter.menu?_of_not_choosing hfed]
  cases hv' : play.vm.suspend with
  | running => exact ⟨play, by rw [applyInput, hv'], idle rfl rfl hv⟩
  | waitingForInput =>
    rw [applyInput, hv']
    simp only
    split
    · cases hr : play.text.isReady with
      | true =>
        have hresumed : Suspend.running ≠ .waitingForChoice := by decide
        exact ⟨_, give_click hv' hr, idle rfl rfl hresumed⟩
      | false => exact ⟨_, give_click_early hv' hr, idle rfl rfl hv⟩
    · exact ⟨play, rfl, idle rfl rfl hv⟩
  | waitingForChoice => exact absurd hv' hv

theorem fed_of_choosing (hs : play.Sound) (hv : play.vm.suspend = .waitingForChoice)
    (h : play.applyInput = .ok fed) : Fed play fed := by
  rw [applyInput_of_choosing hs hv] at h
  cases hc : play.vm.offer.choices[play.picks.headD 0]? with
  | none =>
    have hanswer : play.tale.answer = .error _ := Tale.answer_of_noChoice hv hc
    rw [hanswer] at h
    cases h
  | some choice =>
    have hanswer : play.tale.answer = .ok play.tale.pick := Tale.answer_of_choice hv hc
    rw [hanswer] at h
    cases h
    have hmenu := Interpreter.menu?_of_choosing hv
    refine ⟨?_, ?_, fun _ => ⟨choice.target, Offer.poll_pick (hs.unpicked hv).1 hc⟩, ?_⟩
    · rw [hmenu]
      exact List.drop_one.symm
    · rw [hmenu, answered, Tale.chosen_choosing hv hc]
      change (play.selections ++ [choice.text].toArray).toList.map some =
        _ ++ [play.vm.offer.choices[play.picks.headD 0]?.map Choice.text]
      rw [hc, Array.toList_append, List.map_append]
      rfl
    · rw [hmenu]
      exact Interpreter.menu?_of_choosing hv

-- ---------------------------------------------------------------------------
-- Failures
-- ---------------------------------------------------------------------------

theorem frame_failed_iff :
    play.frame.1 = .failed error ↔ play.updateStage.applyInput = .error error := by
  cases h : play.updateStage.applyInput with
  | error refused => rw [frame_of_refused h, FrameResult.failed.injEq, Except.error.injEq]
  | ok fed =>
    refine iff_of_false (fun hfailed => ?_) nofun
    have hstop := (frame_of_fed h).1
    rw [hfailed] at hstop
    split at hstop <;> cases hstop

/-- A frame fails where the pick listed is not on the menu. -/
theorem frame_fails_iff (hs : play.Sound) :
    play.frame.1 = .failed error ↔
      ∃ menu, play.vm.menu? = some menu ∧ menu.length ≤ play.picks.headD 0 ∧
        error = .invalidChoiceIndex (play.picks.headD 0) menu.length := by
  rw [frame_failed_iff]
  by_cases hv : play.vm.suspend = .waitingForChoice
  · have hv' : play.updateStage.vm.suspend = .waitingForChoice := hv
    rw [Interpreter.menu?_of_choosing hv, applyInput_of_choosing hs.updateStage hv']
    change play.tale.answer.map play.updateStage.answered = _ ↔ _
    cases hc : play.vm.offer.choices[play.picks.headD 0]? with
    | none =>
      have hanswer : play.tale.answer = .error _ := Tale.answer_of_noChoice hv hc
      have hle := List.getElem?_eq_none_iff.mp hc
      rw [hanswer]
      constructor
      · rintro ⟨⟩
        exact ⟨_, rfl, hle, rfl⟩
      · rintro ⟨_, ⟨⟩, -, rfl⟩
        rfl
    | some choice =>
      have hanswer : play.tale.answer = .ok _ := Tale.answer_of_choice hv hc
      have hlt := (List.getElem?_eq_some_iff.mp hc).1
      rw [hanswer]
      refine iff_of_false nofun ?_
      rintro ⟨_, ⟨⟩, hle, -⟩
      exact absurd hlt (Nat.not_lt.mpr hle)
  · have hv' : play.updateStage.vm.suspend ≠ .waitingForChoice := hv
    obtain ⟨fed, hfed, -⟩ := fed_of_not_choosing hv'
    rw [Interpreter.menu?_of_not_choosing hv, hfed]
    exact iff_of_false nofun (fun ⟨_, h, _⟩ => nomatch h)

-- ---------------------------------------------------------------------------
-- Records
-- ---------------------------------------------------------------------------

/-- The text of the option that is taken from the menu of the given number. -/
def takenFrom (picks : List Nat) (number : Nat) (menu : List Choice) : Option String :=
  menu[picks.getD number 0]?.map (·.text)

/-- What is on record of the commands, and how many picks that has used up. -/
structure Recorded (picks : List Nat) (commands : List DisplayCommand) (play : Playthrough) :
    Prop where
  sound : play.Sound
  transcript : play.transcript.toList = commands.filterMap (·.text?)
  left : play.picks = picks.drop (commands.count .hideChoices)
  menus : ∃ closed, commands.filterMap (·.menu?) = closed ++ play.vm.menu?.toList ∧
    closed.length = commands.count .hideChoices ∧
    play.selections.toList.map some = closed.mapIdx (takenFrom picks)

theorem headD_drop (picks : List Nat) (number : Nat) :
    (picks.drop number).headD 0 = picks.getD number 0 := by
  rw [List.headD_eq_head?_getD, List.head?_drop, List.getD_eq_getElem?_getD]

theorem Recorded.frame {picks : List Nat} (h : Recorded picks commands play)
    (hgo : ∀ error, play.frame.1 ≠ .failed error) :
    Recorded picks (commands ++ play.session.commands play.acts) play.frame.2 := by
  obtain ⟨fed, hinput⟩ := exists_fed hgo
  have hs : play.updateStage.Sound := h.sound.updateStage
  have hfed : Fed play.updateStage fed := by
    by_cases hv : play.updateStage.vm.suspend = .waitingForChoice
    · exact fed_of_choosing hs hv hinput
    · obtain ⟨_, heq, hfed⟩ := fed_of_not_choosing hv
      cases heq.symm.trans hinput
      exact hfed
  obtain ⟨hmenus, hhides⟩ := Interpreter.step_menus hfed.delivers
  obtain ⟨closed, hclosed, hlength, hselections⟩ := h.menus
  have hmenu : fed.vm.menu? = play.vm.menu? := hfed.menu
  have hcount : (commands ++ Action.commands fed.vm.step.actions).count .hideChoices =
      closed.length + play.vm.menu?.toList.length := by
    rw [List.count_append, hhides, hmenu, hlength]
  rw [commands_acts hinput, (frame_of_fed hinput).2]
  refine ⟨(frame_of_fed hinput).2 ▸ h.sound.frame, ?_, ?_, ?_⟩
  · rw [step_transcript, Action.texts_eq, List.filterMap_append, (applyInput_eq_ok hinput).2.1]
    exact congrArg (· ++ _) h.transcript
  · rw [hcount, hlength, ← List.drop_drop, ← h.left]
    exact hfed.picks
  · refine ⟨closed ++ play.vm.menu?.toList, ?_, by rw [hcount, List.length_append], ?_⟩
    · rw [List.filterMap_append, hclosed, hmenus, step_vm]
    · have htaken : play.vm.menu?.toList.map (fun menu => menu[play.picks.headD 0]?.map (·.text)) =
          play.vm.menu?.toList.mapIdx fun number => takenFrom picks (number + closed.length) := by
        rw [h.left, headD_drop, ← hlength]
        cases play.vm.menu? with
        | none => rfl
        | some menu => simp [takenFrom]
      rw [List.mapIdx_append, ← hselections, ← htaken]
      exact hfed.selections

theorem Played.recorded {first : Playthrough} {picks : List Nat} {acts : List Act}
    (h : Played first acts play) (hfirst : Recorded picks [] first) :
    Recorded picks (first.session.commands acts) play := by
  induction h with
  | start => exact hfirst
  | frame hplayed hgo ih =>
    rw [Session.commands_append, ← hplayed.session]
    exact ih.frame hgo

theorem recorded_opening (program : Program) (config : Config) (files : Files) (picks : List Nat)
    (skipReveal : Bool) : Recorded picks [] (opening program config files picks skipReveal) where
  sound := sound_opening ..
  transcript := rfl
  left := rfl
  menus := ⟨[], rfl, rfl, rfl⟩

/-- After any frames, none of which failed: the transcript is what the stage was
told to show; at most one menu is open, and there is one selection for each menu
closed, the option listed for it, or the first once the list has run out; and the
next frame fails just when the menu now open has no such option. -/
theorem records_exact {picks : List Nat} {acts : List Act}
    (hstart : start config files picks skip = .ok first) (hplayed : first.Played acts play) :
    let commands := first.session.commands acts
    let menus := commands.filterMap (·.menu?)
    let closed := commands.count .hideChoices
    play.session = first.session.afterActs acts ∧
    play.transcript.toList = commands.filterMap (·.text?) ∧
    (menus.length = closed ∨ menus.length = closed + 1) ∧
    play.selections.size = closed ∧
    (∀ number, number < closed → ∃ menu choice, menus[number]? = some menu ∧
      menu[picks.getD number 0]? = some choice ∧
      play.selections[number]? = some choice.text) ∧
    (∀ error, play.frame.1 = .failed error ↔
      ∃ menu, menus[closed]? = some menu ∧ menu.length ≤ picks.getD closed 0 ∧
        error = .invalidChoiceIndex (picks.getD closed 0) menu.length) := by
  intro commands menus closed
  obtain ⟨program, -, rfl⟩ := eq_opening_of_start hstart
  have hrecorded : Recorded picks commands play := hplayed.recorded (recorded_opening ..)
  obtain ⟨taken, hmenus, hlength, hselections⟩ := hrecorded.menus
  have hsize : play.selections.size = closed := by
    have := congrArg List.length hselections
    rwa [List.length_map, Array.length_toList, List.length_mapIdx, hlength] at this
  refine ⟨hplayed.session, hrecorded.transcript, ?_, hsize, fun number hlt => ?_,
    fun error => ?_⟩
  · rw [show menus = _ from hmenus, List.length_append, hlength]
    cases play.vm.menu? with
    | none => exact .inl rfl
    | some menu => exact .inr rfl
  · have hnumber : number < taken.length := hlength.symm ▸ hlt
    have hnumber' : number < play.selections.size := hsize.symm ▸ hlt
    have hentry : some play.selections[number] = takenFrom picks number taken[number] := by
      have := congrArg (·[number]?) hselections
      simpa [hnumber, hnumber'] using this
    obtain ⟨choice, hchoice, htext⟩ := Option.map_eq_some_iff.mp hentry.symm
    refine ⟨taken[number], choice, ?_, hchoice, ?_⟩
    · rw [show menus = _ from hmenus, List.getElem?_append_left hnumber,
        List.getElem?_eq_getElem hnumber]
    · rw [Array.getElem?_eq_getElem hnumber', htext]
  · have hopen : menus[closed]? = play.vm.menu? := by
      rw [show menus = _ from hmenus, List.getElem?_append_right (Nat.le_of_eq hlength), hlength,
        Nat.sub_self]
      cases play.vm.menu? <;> rfl
    rw [frame_fails_iff hrecorded.sound, hopen, hrecorded.left, headD_drop]

end

/-- The second menu has no third option. -/
theorem records_exact_thirdOfTwo :
    let files : Files := { entries := [(["first.rgo"],
      some "@choice 走 -> a 留 -> b\n:a\n走了\n:b\n留下\n@choice 再来 -> b 好 -> a".toUTF8)] }
    let config : Config := { assetsRoot := "", startScript := "first.rgo", text.charDelay := 0 }
    ∃ first acts play, start config files [1, 2] false = .ok first ∧ first.Played acts play ∧
      (first.session.commands acts).filterMap (·.text?) = ["留下"] ∧
      (first.session.commands acts).count .hideChoices = 1 ∧
      play.selections = #["留"] ∧ play.frame.1 = .failed (.invalidChoiceIndex 2 2) ∧
      ∃ menu, ((first.session.commands acts).filterMap (·.menu?))[1]? = some menu ∧
        menu.length = 2 := by
  intro files config
  let program : Program :=
    ⟨[⟨1, "@choice 走 -> a 留 -> b"⟩, ⟨2, ":a"⟩, ⟨3, "走了"⟩, ⟨4, ":b"⟩, ⟨5, "留下"⟩,
      ⟨6, "@choice 再来 -> b 好 -> a"⟩]⟩
  have hload : (Program.load files config.startScriptPath).toOption = some program := by
    decide +kernel
  have hstart := start_eq_opening hload [1, 2] false
  let first := opening program config files [1, 2] false
  let play := first.frame.2.frame.2.frame.2
  have offered : first.frame.1 = .running := by decide +kernel
  have picked : first.frame.2.frame.1 = .running := by decide +kernel
  have resumed : first.frame.2.frame.2.frame.1 = .running := by decide +kernel
  have hplayed : first.Played _ play :=
    .frame (.frame (.frame .start (by simp [offered])) (by simp [picked])) (by simp [resumed])
  have hsaid : play.transcript.toList = ["留下"] := by decide +kernel
  have hchosen : play.selections = #["留"] := by decide +kernel
  have hfailed : play.frame.1 = .failed (.invalidChoiceIndex 2 2) := by decide +kernel
  obtain ⟨-, htranscript, -, hclosed, -, hfails⟩ := records_exact hstart hplayed
  obtain ⟨menu, hmenu, -, hsize⟩ := (hfails _).mp hfailed
  rw [hchosen] at hclosed
  rw [← hclosed] at hmenu hsize
  injection hsize with _ hsize
  exact ⟨first, _, play, hstart, hplayed, htranscript.symm.trans hsaid, hclosed.symm, hchosen,
    hfailed, menu, hmenu, hsize.symm⟩

end Playthrough

end VisualNovel

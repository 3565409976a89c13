import Mathlib.Logic.Relation
import VisualNovel.Proofs.Playthrough.Telling

/-!
# Timing does not change the story

What the stage looks like, how fast it shows texts and which images there are
decide how many frames a story takes and nothing of what is told
(`Playthrough.same_story`). Of two playthroughs at the same pace the one that
skips is never behind (`Quicker.frame`): it may complete a text, and it is ready
to go on when the other is.
-/

namespace VisualNovel

namespace Tale

/-- The tale goes on, by a turn. -/
def TurnsTo (tale next : Tale) : Prop :=
  tale.turn.stop = none ∧ tale.turn.next = next

theorem answer_not_waiting (h : answer tale = .ok answered) :
    answered.vm.suspend ≠ .waitingForInput := by
  cases hv : tale.vm.suspend with
  | running =>
    rw [answer, hv] at h
    cases h
    simp [hv]
  | waitingForInput =>
    rw [answer, hv] at h
    cases h
    simp [resume]
  | waitingForChoice =>
    cases hc : tale.vm.offer.choices[tale.picks.headD 0]? with
    | none => cases (answer_of_noChoice hv hc).symm.trans h
    | some choice =>
      cases (answer_of_choice hv hc).symm.trans h
      simp [pick, hv]

/-- A turn that ends at a text has said that text and nothing else. -/
theorem turn_said {tale : Tale} (hgo : tale.turn.stop = none)
    (hv : tale.turn.next.vm.suspend = .waitingForInput) :
    ∃ text, Happening.said tale.turn.told = [text] := by
  unfold turn at hgo hv ⊢
  cases h : tale.answer with
  | error _ => simp [h] at hgo
  | ok answered =>
    have hshows := Interpreter.step_shows (answer_not_waiting h)
    simp only [h, Happening.said_append, said_choosing, Happening.said_happenings,
      List.nil_append] at hv ⊢
    generalize Action.texts answered.vm.step.actions = texts at hshows ⊢
    cases hshows with
    | text _ _ => exact ⟨_, rfl⟩
    | nothing hne => exact absurd hv hne

end Tale

namespace Playthrough

-- ---------------------------------------------------------------------------
-- Pace
-- ---------------------------------------------------------------------------

/-- The first has got at least as far as the other; where they are level, it is
not the one to be waited for. -/
inductive Leads (play other : Playthrough) : Prop
  | level : play.tale = other.tale →
      (play.vm.suspend = .waitingForInput → play.text = other.text ∨ play.text.isReady = true) →
      Leads play other
  | ahead : Relation.TransGen Tale.TurnsTo other.tale play.tale → Leads play other

/-- One that skips and another, at the same pace and after as many frames. -/
structure Quicker (play other : Playthrough) : Prop where
  skips : play.skipReveal = true
  delay : other.text.delay = play.text.delay
  sound : play.Sound
  sound' : other.Sound
  leads : Leads play other

section
variable {play other : Playthrough}

/-- When both are level and the first waits, the other waits, too. -/
theorem Waits.of_level (hw : play.Waits) (htale : play.tale = other.tale)
    (htext : play.text = other.text ∨ play.text.isReady = true) : other.Waits := by
  obtain ⟨hv, hr⟩ := hw
  have hvm : play.vm = other.vm := congrArg Tale.vm htale
  obtain htext | hready := htext
  · exact ⟨hvm ▸ hv, htext ▸ hr⟩
  · rw [play.text.isReady_update hready] at hr
    cases hr

theorem isReady_of_waits (hs : play.Sound) (hskip : play.skipReveal = true) (hw : play.Waits) :
    play.frame.2.text.isReady = true := by
  rw [(frame_of_waits hs hw).2.text, if_pos hskip]
  exact Reveal.isReady_complete _

/-- Two that turn from the same tale show the same text. -/
theorem text_eq_of_turn (h : Quicker play other) (htale : play.tale = other.tale)
    (hgo : play.tale.turn.stop = none) (hw : ¬play.Waits) (hw' : ¬other.Waits)
    (hv : play.frame.2.vm.suspend = .waitingForInput) :
    play.frame.2.text = other.frame.2.text := by
  have hheard := (frame_of_not_waits h.sound hw).2
  have hheard' := (frame_of_not_waits h.sound' hw').2
  have hvm : play.frame.2.vm = play.tale.turn.next.vm := congrArg Tale.vm hheard.tale
  obtain ⟨text, hsaid⟩ := Tale.turn_said hgo (hvm ▸ hv)
  rw [hheard.text, hheard'.text, ← htale, hsaid]
  refine (Reveal.setText_eq_of_delay _ ?_ text).symm
  rw [Reveal.delay_update, Reveal.delay_update, h.delay]

/-- Where the other has not got further, it is enough to be ready. -/
theorem Leads.of_reflTransGen (h : Relation.ReflTransGen Tale.TurnsTo other.tale play.tale)
    (hready : play.text.isReady = true) : Leads play other := by
  obtain heq | hahead := Relation.reflTransGen_iff_eq_or_transGen.mp h
  · exact .level heq fun _ => .inr hready
  · exact .ahead hahead

/-- A frame without waiting gets nearer to any tale that lies ahead. -/
theorem frame_nearer (hs : play.Sound) (hw : ¬play.Waits)
    (hahead : Relation.TransGen Tale.TurnsTo play.tale goal) :
    play.frame.1.stop? = none ∧ Relation.ReflTransGen Tale.TurnsTo play.frame.2.tale goal := by
  obtain ⟨hstop, hheard⟩ := frame_of_not_waits hs hw
  obtain ⟨middle, hturn, hrest⟩ := Relation.TransGen.head'_iff.mp hahead
  refine ⟨hstop.trans hturn.1, ?_⟩
  rwa [show play.frame.2.tale = middle from hheard.tale.trans hturn.2]

/-- While the first waits, the other waits as well or catches up by a turn. -/
theorem Quicker.leads_wait (h : Quicker play other) (hw : play.Waits) :
    other.frame.1.stop? = none ∧ Leads play.frame.2 other.frame.2 := by
  have htale : play.frame.2.tale = play.tale := (frame_of_waits h.sound hw).2.tale
  have hready : play.frame.2.text.isReady = true := isReady_of_waits h.sound h.skips hw
  by_cases hw' : other.Waits
  · obtain ⟨hgo', hheard'⟩ := frame_of_waits h.sound' hw'
    refine ⟨hgo', .of_reflTransGen ?_ hready⟩
    rw [htale, hheard'.tale]
    cases h.leads with
    | level heq _ => exact heq ▸ .refl
    | ahead hahead => exact hahead.to_reflTransGen
  · cases h.leads with
    | level heq htext => exact absurd (hw.of_level heq (htext hw.1)) hw'
    | ahead hahead =>
      obtain ⟨hgo', hnearer⟩ := frame_nearer h.sound' hw' hahead
      exact ⟨hgo', .of_reflTransGen (htale ▸ hnearer) hready⟩

/-- When the first takes a turn, the other takes the same one or is behind. -/
theorem Quicker.leads_turn (h : Quicker play other) (hw : ¬play.Waits)
    (hgo : play.frame.1.stop? = none) :
    other.frame.1.stop? = none ∧ Leads play.frame.2 other.frame.2 := by
  obtain ⟨hstop, hheard⟩ := frame_of_not_waits h.sound hw
  have hturns : play.tale.TurnsTo play.frame.2.tale := ⟨hstop.symm.trans hgo, hheard.tale.symm⟩
  by_cases hw' : other.Waits
  · obtain ⟨hgo', hheard'⟩ := frame_of_waits h.sound' hw'
    refine ⟨hgo', .ahead ?_⟩
    rw [hheard'.tale]
    cases h.leads with
    | level heq _ => exact .single (heq ▸ hturns)
    | ahead hahead => exact hahead.tail hturns
  · cases h.leads with
    | level heq _ =>
      obtain ⟨hstop', hheard'⟩ := frame_of_not_waits h.sound' hw'
      refine ⟨?_, .level ?_ fun hv => .inl (text_eq_of_turn h heq hturns.1 hw hw' hv)⟩
      · rw [hstop', ← heq]
        exact hturns.1
      · rw [hheard.tale, hheard'.tale, heq]
    | ahead hahead =>
      obtain ⟨hgo', hnearer⟩ := frame_nearer h.sound' hw' hahead
      exact ⟨hgo', .ahead (.tail' hnearer hturns)⟩

/-- As long as the first goes on, the other does, and is not ahead. -/
theorem Quicker.frame (h : Quicker play other) (hgo : play.frame.1.stop? = none) :
    other.frame.1.stop? = none ∧ Quicker play.frame.2 other.frame.2 := by
  obtain ⟨hgo', hleads⟩ : other.frame.1.stop? = none ∧ Leads play.frame.2 other.frame.2 := by
    by_cases hw : play.Waits
    · exact h.leads_wait hw
    · exact h.leads_turn hw hgo
  exact ⟨hgo', {
    skips := (frame_skipReveal h.sound).trans h.skips
    delay := by rw [frame_delay h.sound, frame_delay h.sound', h.delay]
    sound := h.sound.frame
    sound' := h.sound'.frame
    leads := hleads }⟩

/-- When the other has come to an end, the first has, and no later. -/
theorem Quicker.runFrom (h : Quicker play other) (limit limit' frames left : Nat)
    (hend : (other.runFrom limit' frames left).ending ≠ .frameLimit) :
    (play.runFrom limit frames left).ending ≠ .frameLimit ∧
      (play.runFrom limit frames left).frames ≤ (other.runFrom limit' frames left).frames := by
  induction left generalizing frames play other with
  | zero => exact absurd rfl hend
  | succ left ih =>
    cases hgo : play.frame.1.stop? with
    | none =>
      obtain ⟨hgo', hnext⟩ := h.frame hgo
      rw [runFrom_of_go hgo'] at hend ⊢
      rw [runFrom_of_go hgo]
      exact ih hnext (frames + 1) hend
    | some stop =>
      obtain ⟨ending, hstop, hrun⟩ := runFrom_of_stop hgo limit frames left
      rw [hrun]
      refine ⟨fun hlimit => ?_, ?_⟩
      · rw [show ending = .frameLimit from hlimit] at hstop
        cases hstop
      · exact runFrom_frames_gt ..

theorem Quicker.run (h : Quicker play other) (hend : (play.run limit).ending ≠ .frameLimit)
    (hend' : (other.run limit').ending ≠ .frameLimit) :
    (play.run limit).frames ≤ (other.run limit').frames := by
  obtain ⟨hended, hle⟩ := h.runFrom limit' limit' 0 limit' hend'
  -- The first has come to its end within the frames of the other, too.
  have heq : play.run limit = play.run limit' := by
    obtain hlimit | hlimit := Nat.le_total limit limit'
    · exact (runFrom_of_le hlimit hend limit').symm
    · exact runFrom_of_le hlimit hended limit
  rwa [heq]

end

-- ---------------------------------------------------------------------------
-- Any two playthroughs of a story
-- ---------------------------------------------------------------------------

/-- A playthrough of a program before its first frame. -/
def opening (program : Program) (config : Config) (files : Files) (picks : List Nat)
    (skipReveal : Bool) : Playthrough where
  session := ⟨(Interpreter.ofOptions config.story).load program, .ofConfig config files⟩
  picks := picks
  skipReveal := skipReveal

theorem eq_opening_of_start {picks : List Nat} (h : start config files picks skip = .ok play) :
    ∃ program, Program.load files config.startScriptPath = .ok program ∧
      play = opening program config files picks skip := by
  cases hload : Program.load files config.startScriptPath with
  | error _ => simp [start, hload, Except.map] at h
  | ok program =>
    rw [start, hload] at h
    exact ⟨program, rfl, (Except.ok.inj h).symm⟩

theorem start_eq_opening {program : Program}
    (h : (Program.load files config.startScriptPath).toOption = some program) (picks : List Nat)
    (skipReveal : Bool) :
    start config files picks skipReveal = .ok (opening program config files picks skipReveal) := by
  cases hload : Program.load files config.startScriptPath with
  | error _ => simp [hload, Except.toOption] at h
  | ok loaded =>
    rw [hload] at h
    cases h
    rw [start, hload]
    rfl

section
variable (program : Program) (config : Config) (files : Files) (picks : List Nat)
  (skipReveal : Bool)

theorem sound_opening : (opening program config files picks skipReveal).Sound where
  unpicked := nofun
  laid := nofun

theorem at_opening :
    At ⟨(Interpreter.ofOptions config.story).load program, picks⟩
      (opening program config files picks skipReveal) 0 where
  sound := sound_opening ..
  tale := rfl
  transcript := rfl
  selections := rfl

end

/-- Two playthroughs of a story, by the same picks. What the one has told is a
beginning of what the other has; when the one has come to an end, finished or
refused a pick, the other needs but frames enough to come to the same; and if
only one skips, at the same pace, it takes no longer. -/
theorem same_story {config config' : Config} {files files' : Files} {picks : List Nat}
    {skip skip' : Bool} {play play' : Playthrough}
    (hstart : start config files picks skip = .ok play)
    (hstart' : start config' files' picks skip' = .ok play')
    (hstory : config'.story = config.story)
    (hscript : Program.load files' config'.startScriptPath =
      Program.load files config.startScriptPath) :
    (∀ limit limit',
      let told := (play.run limit).last
      let told' := (play'.run limit').last
      (told.transcript.toList <+: told'.transcript.toList ∨
        told'.transcript.toList <+: told.transcript.toList) ∧
      (told.selections.toList <+: told'.selections.toList ∨
        told'.selections.toList <+: told.selections.toList)) ∧
    (∀ limit, (play.run limit).ending ≠ .frameLimit →
      (∃ enough, ∀ limit', enough ≤ limit' → (play'.run limit').ending ≠ .frameLimit) ∧
      ∀ limit', (play'.run limit').ending ≠ .frameLimit →
        (play.run limit).SameEnd (play'.run limit')) ∧
    (config'.text.charDelay = config.text.charDelay → skip = true → ∀ limit limit',
      (play.run limit).ending = .finished → (play'.run limit').ending = .finished →
        (play.run limit).frames ≤ (play'.run limit').frames) := by
  obtain ⟨program, hload, rfl⟩ := eq_opening_of_start hstart
  obtain ⟨program', hload', rfl⟩ := eq_opening_of_start hstart'
  cases hload'.symm.trans (hscript.trans hload)
  have h := at_opening program config files picks skip
  have h' := at_opening program config' files' picks skip'
  rw [hstory] at h'
  refine ⟨run_comparable h h', fun limit hend => ⟨run_ends h h' hend, fun limit' => ?_⟩, ?_⟩
  · exact run_sameEnd h h' hend
  · intro hdelay hskip limit limit' hend hend'
    have hquicker : Quicker (opening program config files picks skip)
        (opening program config' files' picks skip') := {
      skips := hskip
      delay := hdelay
      sound := h.sound
      sound' := h'.sound
      leads := .level (h.tale.symm.trans h'.tale) nofun }
    exact hquicker.run (by simp [hend]) (by simp [hend'])

/-- The second waits for its texts and has no layers. -/
theorem same_story_twoReaders :
    let files : Files := { entries := [(["first.rgo"],
      some "@choice 走 -> a 留 -> b\n:a\n走了\n:b\n留下".toUTF8)] }
    let config : Config := { assetsRoot := "", startScript := "first.rgo" }
    let config' : Config := { config with layerCount := 0 }
    ∃ play play', start config files [1] true = .ok play ∧
      start config' files [1] false = .ok play' ∧ config'.story = config.story ∧
      Program.load files config'.startScriptPath = Program.load files config.startScriptPath ∧
      (play.run 4).ending = .finished ∧ (play'.run 6).ending = .finished ∧
      (play.run 4).SameEnd (play'.run 6) ∧ (play.run 4).frames ≤ (play'.run 6).frames := by
  intro files config config'
  let program : Program :=
    ⟨[⟨1, "@choice 走 -> a 留 -> b"⟩, ⟨2, ":a"⟩, ⟨3, "走了"⟩, ⟨4, ":b"⟩, ⟨5, "留下"⟩]⟩
  have hread : (Program.load files config.startScriptPath).toOption = some program := by
    decide +kernel
  have hload : Program.load files config.startScriptPath = .ok program := by
    cases h : Program.load files config.startScriptPath with
    | error _ => simp [h, Except.toOption] at hread
    | ok _ => simpa [h, Except.toOption] using hread
  have hstart : start config files [1] true = .ok (opening program config files [1] true) := by
    rw [start, hload]
    rfl
  have hstart' : start config' files [1] false = .ok (opening program config' files [1] false) := by
    rw [start, show config'.startScriptPath = config.startScriptPath from rfl, hload]
    rfl
  have hend : ((opening program config files [1] true).run 4).ending = .finished := by
    decide +kernel
  have hend' : ((opening program config' files [1] false).run 6).ending = .finished := by
    decide +kernel
  obtain ⟨-, hsame, hquicker⟩ := same_story hstart hstart' rfl rfl
  refine ⟨_, _, hstart, hstart', rfl, rfl, hend, hend', ?_, hquicker rfl rfl 4 6 hend hend'⟩
  exact (hsame 4 (by simp [hend])).2 6 (by simp [hend'])

end Playthrough

end VisualNovel

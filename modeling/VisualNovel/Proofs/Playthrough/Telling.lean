import VisualNovel.Proofs.Playthrough.Frame
import VisualNovel.Proofs.Story.Telling

/-!
# A playthrough tells its tale

A playthrough waits for texts, but never for ever (`Playthrough.telling`). So the
transcripts of two playthroughs of a tale begin alike (`run_comparable`), and
when one has come to an end the other comes to the same (`run_ends`,
`run_sameEnd`).
-/

namespace VisualNovel

namespace Playthrough

-- ---------------------------------------------------------------------------
-- Telling
-- ---------------------------------------------------------------------------

/-- So much of the tale has been told, and the transcript and the selections say
what was said and chosen in it. -/
structure At (whole : Tale) (play : Playthrough) (beats : Nat) : Prop where
  sound : play.Sound
  tale : (whole.tell beats).1 = play.tale
  transcript : play.transcript.toList = Happening.said (whole.tell beats).2
  selections : play.selections.toList = Happening.chosen (whole.tell beats).2

section
variable {play : Playthrough} {whole : Tale}

theorem At.heard {later : Tale} {shown : Reveal} (h : At whole play beats) (hs : next.Sound)
    (htell : play.tale.tell more = (later, told)) (hheard : Heard play next later told shown) :
    At whole next (beats + more) := by
  have hadd := whole.tell_add beats more
  simp only [h.tale, htell] at hadd
  refine ⟨hs, ?_, ?_, ?_⟩
  · rw [hadd, hheard.tale]
  · rw [hadd, hheard.transcript, h.transcript, Happening.said_append]
  · rw [hadd, hheard.selections, h.selections, Happening.chosen_append]

/-- A frame that waits leaves less to wait for. -/
theorem patience_of_waits (hs : play.Sound) (h : play.Waits) :
    play.frame.2.text.patience < play.text.patience := by
  have hready : play.text.isReady = false := by
    cases hr : play.text.isReady with
    | false => rfl
    | true => exact absurd (play.text.isReady_update hr) (by simp [h.2])
  have hupdate := play.text.patience_update hready
  rw [(frame_of_waits hs h).2.text]
  split
  · exact Nat.lt_trans (play.text.update.patience_complete h.2) hupdate
  · exact hupdate

theorem At.turn (h : At whole play beats) (hw : ¬play.Waits) :
    ∃ more, At whole play.frame.2 (beats + more) ∧ Turn.Tells play.tale play.tale.turn more := by
  obtain ⟨more, htells⟩ := Tale.turn_tells h.sound.unpicked
  exact ⟨more, h.heard h.sound.frame htells.tell (frame_of_not_waits h.sound hw).2, htells⟩

theorem At.stops (h : At whole play beats) (hstops : play.frame.1.stop? = some stop) :
    ∃ more, At whole play.frame.2 more ∧ whole.StopsBy more stop := by
  by_cases hw : play.Waits
  · cases (frame_of_waits h.sound hw).1.symm.trans hstops
  · obtain ⟨hstop, hheard⟩ := frame_of_not_waits h.sound hw
    obtain ⟨more, hnext, htells⟩ := h.turn hw
    refine ⟨beats + more, hnext, ?_⟩
    rw [Tale.StopsBy, hnext.tale, hheard.tale]
    exact htells.stops stop (hstop.symm.trans hstops)

theorem At.goes (h : At whole play beats) (hgoes : play.frame.1.stop? = none) :
    (∃ more, beats < more ∧ At whole play.frame.2 more ∧ ∀ stop, ¬whole.StopsBy beats stop) ∨
      At whole play.frame.2 beats ∧ play.frame.2.text.patience < play.text.patience := by
  by_cases hw : play.Waits
  · have hnext : At whole play.frame.2 (beats + 0) :=
      h.heard h.sound.frame rfl (frame_of_waits h.sound hw).2
    exact .inr ⟨hnext, patience_of_waits h.sound hw⟩
  · obtain ⟨hstop, -⟩ := frame_of_not_waits h.sound hw
    obtain ⟨more, hnext, htells⟩ := h.turn hw
    obtain ⟨hpos, hgo⟩ := htells.goes (hstop.symm.trans hgoes)
    refine .inl ⟨beats + more, by omega, hnext, fun stop hs => hgo stop ?_⟩
    rwa [Tale.StopsBy, h.tale] at hs

end

def telling (whole : Tale) : Telling whole Playthrough where
  frame play := (play.frame.1.stop?, play.frame.2)
  At := At whole
  patience play := play.text.patience
  stops := At.stops
  goes := At.goes

-- ---------------------------------------------------------------------------
-- Runs
-- ---------------------------------------------------------------------------

def Ending.stop? : Ending → Option Stop
  | .finished => some .over
  | .frameLimit => none
  | .failed error => some (.refused error)

theorem Ending.stop?_injective {ending other : Ending} (h : ending.stop? = other.stop?) :
    ending = other := by
  cases ending <;> cases other <;> simp_all [stop?]

theorem Ending.exists_stop {ending : Ending} (h : ending ≠ .frameLimit) :
    ∃ stop, ending.stop? = some stop := by
  cases ending with
  | frameLimit => exact absurd rfl h
  | finished | failed _ => exact ⟨_, rfl⟩

theorem runFrom_of_go {play : Playthrough} (h : play.frame.1.stop? = none)
    (limit frames left : Nat) :
    play.runFrom limit frames (left + 1) = play.frame.2.runFrom limit (frames + 1) left := by
  rw [runFrom]
  rcases hframe : play.frame with ⟨_ | _ | _, next⟩
  · rfl
  · simp [hframe, FrameResult.stop?] at h
  · simp [hframe, FrameResult.stop?] at h

theorem runFrom_of_stop {play : Playthrough} (h : play.frame.1.stop? = some stop)
    (limit frames left : Nat) :
    ∃ ending : Ending, ending.stop? = some stop ∧
      play.runFrom limit frames (left + 1) = ⟨ending, frames + 1, play.frame.2⟩ := by
  rw [runFrom]
  rcases hframe : play.frame with ⟨_ | _ | error, next⟩
  · simp [hframe, FrameResult.stop?] at h
  · exact ⟨.finished, by rwa [hframe] at h, rfl⟩
  · exact ⟨.failed error, by rwa [hframe] at h, rfl⟩

theorem runFrom_frames_gt (limit frames left : Nat) (play : Playthrough) :
    frames < (play.runFrom limit frames (left + 1)).frames := by
  induction left generalizing frames play with
  | zero =>
    unfold runFrom
    rcases play.frame with ⟨_ | _ | _, next⟩ <;> exact Nat.lt_succ_self frames
  | succ left ih =>
    unfold runFrom
    rcases play.frame with ⟨_ | _ | _, next⟩
    · exact Nat.lt_of_succ_lt (ih (frames + 1) next)
    · exact Nat.lt_succ_self frames
    · exact Nat.lt_succ_self frames

/-- More frames change nothing about a run that has come to an end. -/
theorem runFrom_of_le {play : Playthrough} (hle : left ≤ more)
    (hend : (play.runFrom limit frames left).ending ≠ .frameLimit) (limit' : Nat) :
    play.runFrom limit' frames more = play.runFrom limit frames left := by
  induction left generalizing frames more play with
  | zero => exact absurd rfl hend
  | succ left ih =>
    obtain ⟨more, rfl⟩ : ∃ rest, more = rest + 1 := ⟨more - 1, by omega⟩
    unfold runFrom at hend ⊢
    rcases hframe : play.frame with ⟨_ | _ | _, next⟩
    · simp only [hframe] at hend
      exact ih (Nat.le_of_succ_le_succ hle) hend
    · rfl
    · rfl

/-- But for the note in the log that frames have run out. -/
theorem runFrom_eq (whole : Tale) (limit frames left : Nat) (play : Playthrough) :
    let run := play.runFrom limit frames left
    let told := (telling whole).run left play
    run.ending.stop? = told.1 ∧ ∃ log, run.last = { told.2 with log } := by
  induction left generalizing frames play with
  | zero => exact ⟨rfl, _, rfl⟩
  | succ left ih =>
    cases h : play.frame.1.stop? with
    | none =>
      have htelling : ((telling whole).frame play).1 = none := h
      rw [runFrom_of_go h, Telling.run_of_go _ htelling]
      exact ih (frames + 1) play.frame.2
    | some stop =>
      have htelling : ((telling whole).frame play).1 = some stop := h
      obtain ⟨ending, hstop, hrun⟩ := runFrom_of_stop h limit frames left
      rw [hrun, Telling.run_of_stop _ htelling]
      exact ⟨hstop, _, rfl⟩

/-- What a run has come to, in terms of the tale. -/
theorem run_at (h : At whole play 0) (limit : Nat) :
    ∃ beats, (play.run limit).last.vm = (whole.tell beats).1.vm ∧
      (play.run limit).last.transcript.toList = Happening.said (whole.tell beats).2 ∧
      (play.run limit).last.selections.toList = Happening.chosen (whole.tell beats).2 ∧
      ∀ stop, (play.run limit).ending.stop? = some stop → whole.StopsBy beats stop := by
  obtain ⟨hstop, log, hlast⟩ := runFrom_eq whole limit 0 limit play
  obtain ⟨beats, hat, hstops⟩ := (telling whole).run_at h limit
  have hlast' : (play.run limit).last = { ((telling whole).run limit play).2 with log } := hlast
  refine ⟨beats, ?_, ?_, ?_, fun stop hs => hstops stop (hstop.symm.trans hs)⟩
  · rw [hlast', hat.tale]
    rfl
  · rw [hlast', ← hat.transcript]
  · rw [hlast', ← hat.selections]

/-- Two runs that have come to the same end. -/
structure Run.SameEnd (run run' : Run) : Prop where
  ending : run'.ending = run.ending
  transcript : run'.last.transcript = run.last.transcript
  selections : run'.last.selections = run.last.selections
  vm : run'.last.vm = run.last.vm

section
variable {play play' : Playthrough} {whole : Tale}

theorem run_comparable (h : At whole play 0) (h' : At whole play' 0) (limit limit' : Nat) :
    let told := (play.run limit).last
    let told' := (play'.run limit').last
    (told.transcript.toList <+: told'.transcript.toList ∨
      told'.transcript.toList <+: told.transcript.toList) ∧
    (told.selections.toList <+: told'.selections.toList ∨
      told'.selections.toList <+: told.selections.toList) := by
  obtain ⟨beats, -, hsaid, hchosen, -⟩ := run_at h limit
  obtain ⟨beats', -, hsaid', hchosen', -⟩ := run_at h' limit'
  intro told told'
  rw [hsaid, hsaid', hchosen, hchosen']
  exact ⟨whole.tell_comparable Happening.said? beats beats',
    whole.tell_comparable Happening.chosen? beats beats'⟩

theorem run_sameEnd (h : At whole play 0) (h' : At whole play' 0)
    (hend : (play.run limit).ending ≠ .frameLimit)
    (hend' : (play'.run limit').ending ≠ .frameLimit) :
    (play.run limit).SameEnd (play'.run limit') := by
  obtain ⟨beats, hvm, hsaid, hchosen, hstops⟩ := run_at h limit
  obtain ⟨beats', hvm', hsaid', hchosen', hstops'⟩ := run_at h' limit'
  obtain ⟨stop, hstop⟩ := Ending.exists_stop hend
  obtain ⟨stop', hstop'⟩ := Ending.exists_stop hend'
  obtain ⟨htell, rfl⟩ := (hstops stop hstop).unique (hstops' stop' hstop')
  rw [htell] at hvm' hsaid' hchosen'
  exact {
    ending := Ending.stop?_injective (hstop'.trans hstop.symm)
    transcript := Array.ext' (hsaid'.trans hsaid.symm)
    selections := Array.ext' (hchosen'.trans hchosen.symm)
    vm := hvm'.trans hvm.symm }

theorem run_ends (h : At whole play 0) (h' : At whole play' 0)
    (hend : (play.run limit).ending ≠ .frameLimit) :
    ∃ enough, ∀ limit', enough ≤ limit' → (play'.run limit').ending ≠ .frameLimit := by
  obtain ⟨stop, hstop⟩ := Ending.exists_stop hend
  have htold := (runFrom_eq whole limit 0 limit play).1.symm.trans hstop
  obtain ⟨enough, hstops⟩ := Telling.stops_alike (telling whole) (telling whole) h h' htold
  refine ⟨enough, fun limit' hle hlimit => ?_⟩
  have htold' := (runFrom_eq whole limit' 0 limit' play').1.trans (hstops limit' hle)
  have hnone : (play'.run limit').ending.stop? = none := by rw [hlimit]; rfl
  cases hnone.symm.trans htold'

end

end Playthrough

end VisualNovel

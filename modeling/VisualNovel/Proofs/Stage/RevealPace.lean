import VisualNovel.Proofs.Stage.RevealLaws

/-!
# How fast a text is revealed

A text shows one character more every `delay` frames (`Reveal.pace`), and all of itself once
it is completed. `Reveal.Follows` counts the frames since the text was set, in the characters
shown and the frames waited for the next one; every step keeps it, so what is shown after any
steps has a closed form (`Reveal.follows_pace`).
-/

namespace VisualNovel

/-- What can be done to a reveal between two texts. -/
inductive RevealStep where
  | update
  | complete
  deriving DecidableEq, Repr

namespace Reveal

def step (reveal : Reveal) : RevealStep → Reveal
  | .update => reveal.update
  | .complete => reveal.complete

/-- The reveal after the steps, made one after another. -/
def after (reveal : Reveal) (steps : List RevealStep) : Reveal :=
  steps.foldl step reveal

-- ---------------------------------------------------------------------------
-- The pace
-- ---------------------------------------------------------------------------

/-- How many of `length` characters so many frames show. -/
def pace (delay length frames : Nat) : Nat :=
  if delay = 0 then length else min length (frames / delay)

/-- How many of them some steps show. A text that was completed stays complete. -/
def shownAfter (delay length : Nat) (steps : List RevealStep) : Nat :=
  if .complete ∈ steps then length else pace delay length (steps.count .update)

section
variable {delay length : Nat}

theorem pace_le (frames : Nat) : pace delay length frames ≤ length := by
  unfold pace
  split
  · exact Nat.le_refl length
  · exact Nat.min_le_left ..

theorem pace_mono (h : frames ≤ later) : pace delay length frames ≤ pace delay length later := by
  unfold pace
  split
  · exact Nat.le_refl length
  · have hdiv : frames / delay ≤ later / delay := Nat.div_le_div_right h
    omega

theorem pace_eq_length_iff (frames : Nat) :
    pace delay length frames = length ↔ delay * length ≤ frames := by
  unfold pace
  split
  next hzero => simp [hzero]
  next hdelay =>
    rw [Nat.mul_comm, ← Nat.le_div_iff_mul_le (Nat.pos_of_ne_zero hdelay)]
    omega

/-- Frames counted as those behind the characters shown and those waited since. -/
theorem pace_of_waited {shown waited : Nat} (hwaited : waited < delay) (hshown : shown ≤ length) :
    pace delay length (delay * shown + waited) = shown := by
  have hdelay : 0 < delay := Nat.zero_lt_of_lt hwaited
  rw [pace, if_neg (Nat.ne_of_gt hdelay), Nat.mul_add_div hdelay, Nat.div_eq_of_lt hwaited,
    Nat.add_zero, Nat.min_eq_right hshown]

theorem shownAfter_le (steps : List RevealStep) : shownAfter delay length steps ≤ length := by
  unfold shownAfter
  split
  · exact Nat.le_refl length
  · exact pace_le _

theorem shownAfter_mono (steps more : List RevealStep) :
    shownAfter delay length steps ≤ shownAfter delay length (steps ++ more) := by
  by_cases hmore : .complete ∈ steps ++ more
  · rw [shownAfter.eq_def delay length (steps ++ more), if_pos hmore]
    exact shownAfter_le steps
  · have hsteps : .complete ∉ steps := fun h => hmore (List.mem_append_left more h)
    rw [shownAfter, shownAfter, if_neg hsteps, if_neg hmore, List.count_append]
    exact pace_mono (Nat.le_add_right ..)

end

-- ---------------------------------------------------------------------------
-- Steps
-- ---------------------------------------------------------------------------

/-- The reveal is where the steps made since the text was set have brought it. -/
structure Follows (delay : Nat) (text : String) (steps : List RevealStep) (reveal : Reveal) :
    Prop where
  delay_eq : reveal.delay = delay
  text_eq : reveal.text = text
  shown_eq : reveal.shown = shownAfter delay text.length steps
  ready_iff : reveal.isReady = true ↔ reveal.shown = text.length
  waiting : reveal.isReady = false →
    reveal.waited < delay ∧ delay * reveal.shown + reveal.waited = steps.count .update

namespace Follows

theorem setText (reveal : Reveal) (text : String) :
    Follows reveal.delay text [] (reveal.setText text) := by
  cases hready : decide (reveal.delay = 0) || decide (text.length = 0) with
  | true =>
    have hset : reveal.setText text =
        { reveal with text, isReady := true, waited := 0, shown := text.length } := by
      simp only [Reveal.setText, hready, if_true]
    rw [hset]
    refine ⟨rfl, rfl, ?_, iff_of_true rfl rfl, by simp⟩
    have hall : reveal.delay * text.length ≤ 0 := by
      simpa [Nat.mul_eq_zero] using hready
    exact ((pace_eq_length_iff 0).mpr hall).symm
  | false =>
    obtain ⟨hdelay, hlength⟩ : reveal.delay ≠ 0 ∧ text.length ≠ 0 := by simpa using hready
    have hset : reveal.setText text =
        { reveal with text, isReady := false, waited := 0, shown := 0 } := by
      simp only [Reveal.setText, hready, Bool.false_eq_true, if_false]
    rw [hset]
    have hwaited : 0 < reveal.delay := Nat.pos_of_ne_zero hdelay
    refine ⟨rfl, rfl, ?_, iff_of_false Bool.false_ne_true hlength.symm,
      fun _ => ⟨hwaited, rfl⟩⟩
    exact (pace_of_waited hwaited (Nat.zero_le _)).symm

variable {delay : Nat} {text : String} {steps : List RevealStep} {reveal : Reveal}

/-- A text that is shown in full is left as it is. -/
theorem of_ready (h : Follows delay text steps reveal) (hr : reveal.isReady = true)
    (more : List RevealStep) : Follows delay text (steps ++ more) reveal := by
  refine ⟨h.delay_eq, h.text_eq, ?_, h.ready_iff, fun hnot => nomatch hr.symm.trans hnot⟩
  have hall : reveal.shown = text.length := h.ready_iff.mp hr
  have hless : reveal.shown ≤ shownAfter delay text.length (steps ++ more) :=
    h.shown_eq ▸ shownAfter_mono steps more
  exact Nat.le_antisymm hless (hall ▸ shownAfter_le _)

theorem update (h : Follows delay text steps reveal) :
    Follows delay text (steps ++ [.update]) reveal.update := by
  cases hr : reveal.isReady with
  | true =>
    rw [reveal.update_of_ready hr]
    exact h.of_ready hr _
  | false =>
    have hopen : .complete ∉ steps := fun hmem => by
      have hall : reveal.shown = text.length := by rw [h.shown_eq, shownAfter, if_pos hmem]
      exact nomatch hr.symm.trans (h.ready_iff.mpr hall)
    have hnot : reveal.shown ≠ text.length := fun hall =>
      nomatch hr.symm.trans (h.ready_iff.mpr hall)
    have hbound : reveal.shown ≤ text.length := h.shown_eq ▸ shownAfter_le _
    obtain ⟨hwaited, hframes⟩ := h.waiting hr
    obtain ⟨shown, waited, heq, hnext⟩ := reveal.update_of_not_ready hr
    rw [h.delay_eq] at hnext
    -- Either the frame is the last one waited for a character, or it is waited as well.
    have hcounted : waited < delay ∧ delay * shown + waited = steps.count .update + 1 ∧
        shown ≤ text.length := by
      obtain ⟨hdue, rfl, rfl⟩ | ⟨hlt, rfl, rfl⟩ := hnext
      · rw [Nat.mul_succ]
        omega
      · omega
    obtain ⟨hlt, hcount, hle⟩ := hcounted
    have hupdates : (steps ++ [RevealStep.update]).count .update = steps.count .update + 1 := by
      simp
    rw [heq]
    refine ⟨h.delay_eq, h.text_eq, ?_, ?_, fun _ => ⟨hlt, hcount.trans hupdates.symm⟩⟩
    · rw [shownAfter, if_neg (by simpa using hopen), hupdates, ← hcount, pace_of_waited hlt hle]
    · rw [decide_eq_true_iff, h.text_eq]
      exact ⟨Nat.le_antisymm hle, fun hall => hall ▸ Nat.le_refl _⟩

theorem complete (h : Follows delay text steps reveal) :
    Follows delay text (steps ++ [.complete]) reveal.complete := by
  refine ⟨h.delay_eq, h.text_eq, ?_, iff_of_true rfl (h.text_eq ▸ rfl), nofun⟩
  rw [shownAfter, if_pos (by simp), ← h.text_eq]
  rfl

theorem step (h : Follows delay text steps reveal) (step : RevealStep) :
    Follows delay text (steps ++ [step]) (reveal.step step) := by
  cases step with
  | update => exact h.update
  | complete => exact h.complete

theorem after (h : Follows delay text steps reveal) (more : List RevealStep) :
    Follows delay text (steps ++ more) (reveal.after more) := by
  induction more generalizing steps reveal with
  | nil => exact (List.append_nil steps).symm ▸ h
  | cons step more ih =>
    rw [List.append_cons]
    exact ih (h.step step)

/-- What is ready stays as it is. -/
theorem after_of_ready (h : Follows delay text steps reveal) (hr : reveal.isReady = true)
    (more : List RevealStep) : reveal.after more = reveal := by
  have hcomplete : reveal.complete = reveal := by
    have hall : reveal.text.length = reveal.shown := by rw [h.text_eq, h.ready_iff.mp hr]
    rw [Reveal.complete, hall, ← hr]
  induction more with
  | nil => rfl
  | cons step more ih =>
    cases step with
    | update => exact (congrArg (Reveal.after · more) (reveal.update_of_ready hr)).trans ih
    | complete => exact (congrArg (Reveal.after · more) hcomplete).trans ih

theorem visible_eq (h : Follows delay text steps reveal) :
    reveal.visible = .ofList (text.toList.take (shownAfter delay text.length steps)) := by
  rw [visible, h.text_eq, h.shown_eq]

end Follows

/-- A text that has been set, on whatever reveal, is shown at its pace, until it is completed;
it is ready just when all of it is shown, without completing after exactly `delay` frames for
every character. What is ready stays as it is, and what is shown stays shown. The frames
counted for the next character are fewer than `delay`. A reveal that is cleared, or new,
stands where the empty text is set. -/
theorem follows_pace (reveal : Reveal) (text : String) (steps : List RevealStep) :
    let now := (reveal.setText text).after steps
    let shown := shownAfter reveal.delay text.length steps
    now.visible = .ofList (text.toList.take shown) ∧
      (now.isReady = true ↔ shown = text.length) ∧
      (.complete ∉ steps →
        (now.isReady = true ↔ reveal.delay * text.length ≤ steps.count .update)) ∧
      (now.isReady = true → ∀ more, now.after more = now) ∧
      (∀ more, now.visible.toList <+: (now.after more).visible.toList) ∧
      (now.isReady = false → now.waited < reveal.delay) ∧
      reveal.clear = reveal.setText "" ∧ { delay := reveal.delay } = reveal.setText "" := by
  intro now shown
  have hnow : Follows reveal.delay text steps now := (Follows.setText reveal text).after steps
  refine ⟨hnow.visible_eq, ?_, fun hopen => ?_, fun hr more => ?_, fun more => ?_,
    fun hnot => (hnow.waiting hnot).1, rfl, ?_⟩
  · rw [hnow.ready_iff, hnow.shown_eq]
  · rw [hnow.ready_iff, hnow.shown_eq, shownAfter, if_neg hopen, pace_eq_length_iff]
  · exact hnow.after_of_ready hr more
  · rw [hnow.visible_eq, (hnow.after more).visible_eq, String.toList_ofList, String.toList_ofList]
    exact List.take_prefix_take_left (shownAfter_mono steps more)
  · simp [Reveal.setText]

end Reveal

end VisualNovel
